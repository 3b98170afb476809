import Fctf.Access.SignedValue
import Fctf.Contest.Endpoints
import Fctf.Kypo.Password

/-!
Who may download a file, and where it is read from: the token of a link is a signed value, and
the path is put below the mounted directory and normalised.
-/

namespace Fctf.Contest

open ChallengeService

/-! ### Paths -/

/-- A dot stands for the directory itself, two dots for the one above, as far as there is one. -/
def relativeStep (names : List (List Char)) (segment : List Char) : List (List Char) :=
  if segment = [] ∨ segment = ['.'] then names
  else if segment = ['.', '.'] then names.dropLast
  else names ++ [segment]

/-- The names on the way from the root, when a path is followed from a directory. -/
def walk (names : List (List Char)) (path : List Char) : List (List Char) :=
  (path.splitOn '/').foldl relativeStep names

/-- The names on the way from the root, of a path that begins there. -/
def namesOf (path : List Char) : List (List Char) := walk [] path

/-- `Path.Combine` of two paths. -/
def combine (path1 path2 : List Char) : List Char :=
  if path2 = [] then path1
  else if path1 = [] ∨ path2.head? = some '/' then path2
  else if path1.getLast? = some '/' then path1 ++ path2
  else path1 ++ '/' :: path2

/-- `Path.GetFullPath`; a slash at the end stays there. -/
def getFullPath (currentDirectory path : List Char) : List Char :=
  let path := combine currentDirectory path
  let names := namesOf path
  '/' :: (['/'].intercalate names ++ if names ≠ [] ∧ path.getLast? = some '/' then ['/'] else [])

/-- How far a path has led above the directory where it begins, and the names that it has gone down
from there. -/
def wayStep (way : Nat × List (List Char)) (segment : List Char) : Nat × List (List Char) :=
  if segment = [] ∨ segment = ['.'] then way
  else if segment = ['.', '.'] then
    if way.2 = [] then (way.1 + 1, []) else (way.1, way.2.dropLast)
  else (way.1, way.2 ++ [segment])

def wayOf (path : List Char) : Nat × List (List Char) := (path.splitOn '/').foldl wayStep (0, [])

/-- As many directories as a path goes up, it goes down again through their names. -/
def ComesBack (directory : List (List Char)) (path : List Char) : Prop :=
  directory.drop (directory.length - (wayOf path).1) <+: (wayOf path).2

instance decidableComesBack (directory : List (List Char)) (path : List Char) :
    Decidable (ComesBack directory path) :=
  inferInstanceAs (Decidable (_ <+: _))

/-! ### The server -/

/-- `GetPrivateKey`, the clock, the current directory, and what .NET makes of JSON. -/
structure Server where
  crypto : ItsDangerous.Crypto
  privateKey : Option String
  now : Int
  currentDirectory : String
  /-- `JsonSerializer.Deserialize` for a token, or the message of its exception. -/
  deserializeToken : String → Except String (Option FileToken)

namespace Server

variable (srv : Server)

/-- The token in a payload. -/
def readPayload (payloadB64 : String) : Except String (Option FileToken) :=
  match ItsDangerous.b64UrlDecode payloadB64.toList with
  | none => .error "The input is not a valid Base-64 string"
  | some bytes => srv.deserializeToken (String.ofList (Kypo.getString bytes))

/-- `Loads`, with the default age and salt. -/
def loads (token : String) : Except String (Option FileToken) := do
  match srv.privateKey with
  | none => .error "Missing PRIVATE_KEY"
  | some secret =>
    let payloadB64 ←
      srv.crypto.timestampUnsign srv.now token secret (some 432000) "itsdangerous" '.'
    srv.readPayload payloadB64

def fullPath (mountPath path : String) : String :=
  String.ofList (getFullPath srv.currentDirectory.toList (combine mountPath.toList path.toList))

/-- The platform with the tokens and the paths of the server. -/
def platform (base : Platform) : Platform :=
  { base with loads := srv.loads, fullPath := srv.fullPath base.mountPath }

/-! ### What a download must be -/

/-- The token is signed with the key, and this is what it says. -/
def Authentic (token : String) (fileToken : FileToken) : Prop :=
  ∃ secret ∈ srv.privateKey, ∃ value ts sig, token.toList = value ++ '.' :: ts ++ '.' :: sig ∧
    '.' ∉ ts ∧ '.' ∉ sig ∧ sig = srv.crypto.signature secret "itsdangerous" (value ++ '.' :: ts) ∧
      srv.readPayload (String.ofList value) = .ok (some fileToken)

/-- The names on the way to a directory. -/
def directoryNames (directory : String) : List (List Char) :=
  namesOf (combine srv.currentDirectory.toList directory.toList)

/-- Lies in a directory, or in one below it. -/
def Below (directory path : String) : Prop := srv.directoryNames directory <+: namesOf path.toList

instance (directory path : String) : Decidable (srv.Below directory path) :=
  inferInstanceAs (Decidable (_ <+: _))

end Server

/-- A challenge that a team may have the files of. -/
structure Open (platform : Platform) (db : Db) (challenge : Challenge) (teamId : Option Nat) :
    Prop where
  shown : equalsIgnoreCase challenge.state "hidden" = false
  prerequisites : ∀ requirements ∈ challenge.requirements,
    isNullOrWhiteSpace requirements = false →
      ∃ ids, FileService.readPrerequisites platform requirements = some ids ∧
        ∀ id ∈ ids, isChallenge db id = true → solved db teamId id = true

/-- A file that a token of a user gives access to under a path. -/
structure Granted (srv : Server) (platform : Platform) (db : Db) (path token : String)
    (userId : Nat) (fileToken : FileToken) (file : File) : Prop where
  authentic : srv.Authentic token fileToken
  user : fileToken.userId = userId
  record : file ∈ db.files
  id_eq : file.id = fileToken.fileId
  location : file.location = some path
  challenge : file.type.any (equalsIgnoreCase · "challenge") = true →
    ∃ challenge, file.challengeId.bind db.challenge = some challenge ∧
      Open platform db challenge fileToken.teamId

/-! ### Where a path leads -/

/-- No part of a split text has the separator. -/
theorem notMem_of_mem_splitOn {sep : Char} {text part : List Char}
    (h : part ∈ text.splitOn sep) : sep ∉ part := by
  induction text generalizing part with
  | nil =>
    obtain rfl := List.mem_singleton.mp (List.splitOn_nil sep ▸ h)
    exact List.not_mem_nil
  | cons c text ih =>
    rw [List.splitOn_cons_eq_if_modifyHead] at h
    split_ifs at h with hc
    · rcases List.mem_cons.mp h with rfl | h
      · exact List.not_mem_nil
      · exact ih h
    · cases hsplit : text.splitOn sep with
      | nil => exact absurd hsplit (List.splitOn_ne_nil sep text)
      | cons first parts =>
        rw [hsplit] at h ih
        rcases List.mem_cons.mp h with rfl | h
        · rintro (_ | ⟨_, hmem⟩)
          · exact hc (beq_self_eq_true sep)
          · exact ih List.mem_cons_self hmem
        · exact ih (List.mem_cons_of_mem first h)

section Walk

variable {names : List (List Char)} {path path1 path2 : List Char}

/-- A name that a walk goes through. -/
structure IsName (name : List Char) : Prop where
  slash_notMem : '/' ∉ name
  ne_nil : name ≠ []
  ne_dot : name ≠ ['.']
  ne_dots : name ≠ ['.', '.']

theorem walk_nil : walk names [] = names := rfl

theorem walk_append_slash : walk names (path1 ++ '/' :: path2) = walk (walk names path1) path2 := by
  rw [walk, List.splitOn_append_cons_self, List.foldl_append]
  rfl

/-- To follow a combined path is to follow the one and then the other. -/
theorem walk_combine (hne : path1 ≠ []) (hrelative : path2.head? ≠ some '/') :
    walk names (combine path1 path2) = walk (walk names path1) path2 := by
  unfold combine
  split_ifs with hempty hrooted hslash
  · rw [hempty, walk_nil]
  · rcases hrooted with hnil | hrooted
    · exact absurd hnil hne
    · exact absurd hrooted hrelative
  · obtain ⟨front, rfl⟩ := List.getLast?_eq_some_iff.mp hslash
    rw [List.append_assoc, List.singleton_append, walk_append_slash, walk_append_slash, walk_nil]
  · exact walk_append_slash

theorem combine_nil_left : combine [] path = path := by
  unfold combine
  split_ifs with hempty hrooted
  · exact hempty.symm
  · rfl
  all_goals exact absurd (Or.inl rfl) hrooted

theorem head_combine (hne : path1 ≠ []) (hrelative : path2.head? ≠ some '/') :
    (combine path1 path2).head? = path1.head? := by
  unfold combine
  split_ifs with hempty hrooted
  · rfl
  · rcases hrooted with hnil | hrooted
    · exact absurd hnil hne
    · exact absurd hrooted hrelative
  all_goals
    obtain ⟨c, rest, rfl⟩ := List.exists_cons_of_ne_nil hne
    rfl

/-- A relative path is followed from the directory that it is combined with. -/
theorem namesOf_combine (directory : List Char) (hrelative : path2.head? ≠ some '/') :
    namesOf (combine directory (combine path1 path2)) =
      walk (namesOf (combine directory path1)) path2 := by
  unfold namesOf
  by_cases hdirectory : directory = []
  · by_cases hpath : path1 = []
    · subst hdirectory hpath
      rw [combine_nil_left, combine_nil_left, combine_nil_left, walk_nil]
    · rw [hdirectory, combine_nil_left, combine_nil_left, walk_combine hpath hrelative]
  by_cases hpath : path1 = []
  · have hself : combine directory [] = directory := if_pos rfl
    rw [hpath, combine_nil_left, hself, walk_combine hdirectory hrelative]
  by_cases hrooted : path1.head? = some '/'
  · have hwhole : (combine path1 path2).head? = some '/' := by
      rw [head_combine hpath hrelative, hrooted]
    have hne : combine path1 path2 ≠ [] := by
      intro hnil
      rw [hnil] at hwhole
      cases hwhole
    have hleft : combine directory (combine path1 path2) = combine path1 path2 := by
      rw [combine, if_neg hne, if_pos (Or.inr hwhole)]
    have hright : combine directory path1 = path1 := by
      rw [combine, if_neg hpath, if_pos (Or.inr hrooted)]
    rw [hleft, hright, walk_combine hpath hrelative]
  · have hwhole : (combine path1 path2).head? ≠ some '/' := by
      rwa [head_combine hpath hrelative]
    rw [walk_combine hdirectory hwhole, walk_combine hpath hrelative,
      walk_combine hdirectory hrooted]

theorem isName_walk (h : ∀ name ∈ names, IsName name) : ∀ name ∈ walk names path, IsName name := by
  have hsteps : ∀ segments : List (List Char), (∀ segment ∈ segments, '/' ∉ segment) →
      ∀ names, (∀ name ∈ names, IsName name) →
        ∀ name ∈ segments.foldl relativeStep names, IsName name := by
    intro segments
    induction segments with
    | nil => exact fun _ _ h => h
    | cons segment segments ih =>
      intro hslash names hnames
      obtain ⟨hsegment, hslash⟩ := List.forall_mem_cons.mp hslash
      refine ih hslash _ ?_
      unfold relativeStep
      split_ifs with hempty hdots
      · exact hnames
      · exact fun name hname => hnames name (List.mem_of_mem_dropLast hname)
      · intro name hname
        rcases List.mem_append.mp hname with hname | hname
        · exact hnames name hname
        · obtain rfl := List.mem_singleton.mp hname
          rw [not_or] at hempty
          exact ⟨hsegment, hempty.1, hempty.2, hdots⟩
  exact hsteps _ (fun _ hsegment => notMem_of_mem_splitOn hsegment) names h

/-- Names joined by slashes are gone down one after the other. -/
theorem walk_intercalate {down : List (List Char)} (h : ∀ name ∈ down, IsName name) :
    walk names (['/'].intercalate down) = names ++ down := by
  have hsteps : ∀ names : List (List Char), down.foldl relativeStep names = names ++ down := by
    induction down with
    | nil => simp
    | cons name down ih =>
      intro names
      obtain ⟨hname, hdown⟩ := List.forall_mem_cons.mp h
      have hstep : relativeStep names name = names ++ [name] := by
        rw [relativeStep, if_neg (by simp [hname.ne_nil, hname.ne_dot]), if_neg hname.ne_dots]
      rw [List.foldl_cons, hstep, ih hdown, List.append_assoc, List.singleton_append]
  by_cases hdown : down = []
  · rw [hdown, List.append_nil]
    rfl
  · rw [walk, List.splitOn_intercalate '/' (fun name hname => (h name hname).slash_notMem) hdown,
      hsteps]

/-- The full path has the names of the path. -/
theorem namesOf_getFullPath (directory path : List Char) :
    namesOf (getFullPath directory path) = namesOf (combine directory path) := by
  have hnames : ∀ name ∈ namesOf (combine directory path), IsName name := isName_walk (by simp)
  have hroot : ∀ rest : List Char, namesOf ('/' :: rest) = walk [] rest :=
    fun rest => @walk_append_slash [] [] rest
  rw [getFullPath, hroot]
  split_ifs
  · rw [walk_append_slash, walk_intercalate hnames, walk_nil, List.nil_append]
  · rw [List.append_nil, walk_intercalate hnames, List.nil_append]

theorem dropLast_take (m : Nat) : (names.take (names.length - m)).dropLast =
    names.take (names.length - (m + 1)) := by
  rw [List.dropLast_eq_take, List.take_take, List.length_take]
  congr 1
  omega

theorem relativeStep_way (way : Nat × List (List Char)) (segment : List Char) :
    relativeStep (names.take (names.length - way.1) ++ way.2) segment =
      names.take (names.length - (wayStep way segment).1) ++ (wayStep way segment).2 := by
  unfold relativeStep wayStep
  split_ifs with hempty hdots hdown
  · rfl
  · rw [hdown, List.append_nil, List.append_nil, dropLast_take]
  · rw [List.dropLast_append_of_ne_nil hdown]
  · rw [List.append_assoc]

/-- A walk leaves what it has not gone up of the directory, and what it has gone down. -/
theorem walk_eq_way : walk names path =
    names.take (names.length - (wayOf path).1) ++ (wayOf path).2 := by
  have hsteps : ∀ (segments : List (List Char)) (way : Nat × List (List Char)),
      segments.foldl relativeStep (names.take (names.length - way.1) ++ way.2) =
        names.take (names.length - (segments.foldl wayStep way).1) ++
          (segments.foldl wayStep way).2 := by
    intro segments
    induction segments with
    | nil => exact fun _ => rfl
    | cons segment segments ih =>
      intro way
      rw [List.foldl_cons, List.foldl_cons, relativeStep_way, ih]
  have hwalk := hsteps (path.splitOn '/') (0, [])
  rwa [Nat.sub_zero, List.take_length, List.append_nil] at hwalk

/-- A walk ends below the directory exactly if it comes back. -/
theorem prefix_walk_iff : names <+: walk names path ↔ ComesBack names path := by
  have hsplit : names.take (names.length - (wayOf path).1) ++
      names.drop (names.length - (wayOf path).1) = names := List.take_append_drop _ names
  have hsame : names.take (names.length - (wayOf path).1) ++
      names.drop (names.length - (wayOf path).1) <+:
        names.take (names.length - (wayOf path).1) ++ (wayOf path).2 ↔ ComesBack names path :=
    List.prefix_append_right_inj _
  rwa [hsplit, ← walk_eq_way] at hsame

end Walk

theorem Server.below_iff {srv : Server} {mountPath path : String}
    (hrelative : path.toList.head? ≠ some '/') :
    srv.Below mountPath (srv.fullPath mountPath path) ↔
      ComesBack (srv.directoryNames mountPath) path.toList := by
  rw [Server.Below, Server.fullPath, String.toList_ofList, namesOf_getFullPath,
    namesOf_combine _ hrelative]
  exact prefix_walk_iff

/-! ### Tokens -/

/-- A text is the expected one when its bytes are, as that is in ASCII and has no question mark. -/
theorem eq_of_asciiBytes {text expected : List Char}
    (hexpected : ∀ c ∈ expected, c.toNat < 0x80 ∧ c ≠ '?')
    (h : ItsDangerous.asciiBytes text = ItsDangerous.asciiBytes expected) : text = expected := by
  induction expected generalizing text with
  | nil => exact List.map_eq_nil_iff.mp h
  | cons e expected ih =>
    cases text with
    | nil => cases h
    | cons c text =>
      obtain ⟨he, hmark⟩ := hexpected e List.mem_cons_self
      obtain ⟨hbyte, hrest⟩ := List.cons.inj h
      have hrest := ih (fun d hd => hexpected d (List.mem_cons_of_mem e hd)) hrest
      simp only [if_pos he] at hbyte
      have hbound : (UInt8.ofNat e.toNat).toNat = e.toNat := by
        rw [UInt8.toNat_ofNat', Nat.mod_eq_of_lt (by omega)]
      split_ifs at hbyte with hc
      · have hsame : c.toNat = e.toNat := by
          have hnat := congrArg UInt8.toNat hbyte
          rwa [hbound, UInt8.toNat_ofNat', Nat.mod_eq_of_lt (by omega)] at hnat
        rw [char_of_toNat hsame, hrest]
      · have hnat := congrArg UInt8.toNat hbyte
        rw [hbound] at hnat
        exact absurd (char_of_toNat (d := '?') hnat.symm) hmark

theorem signature_chars (c : ItsDangerous.Crypto) (secret salt : String) (text : List Char) :
    ∀ d ∈ c.signature secret salt text, d.toNat < 0x80 ∧ d ≠ '?' := by
  have hmark : ∀ n < 64, urlAlphabet.char n ≠ '?' := by decide
  intro d hd
  refine ⟨base64UrlEncode_ascii _ d hd, ?_⟩
  rintro rfl
  rw [ItsDangerous.Crypto.signature, ItsDangerous.b64Url, base64UrlEncode_eq] at hd
  exact not_mem_encode hmark _ hd

/-- The parts of a token. -/
theorem splitOn_token {value ts sig : List Char} (hts : '.' ∉ ts) (hsig : '.' ∉ sig) :
    (value ++ '.' :: ts ++ '.' :: sig).splitOn '.' = value.splitOn '.' ++ [ts, sig] := by
  rw [List.append_assoc, List.cons_append, List.splitOn_append_cons_self,
    List.splitOn_append_cons_self_of_not_mem hts, List.splitOn_eq_singleton hsig]

/-- What `TimestampUnsign` has of a token that it takes. -/
theorem parts_of_timestampUnsign {c : ItsDangerous.Crypto} {now : Int} {token secret salt : String}
    {maxAge : Option Int32} {payload : String}
    (h : c.timestampUnsign now token secret maxAge salt '.' = .ok payload) :
    ∃ ts sig, token.toList = payload.toList ++ '.' :: ts ++ '.' :: sig ∧ '.' ∉ ts ∧ '.' ∉ sig ∧
      sig = c.signature secret salt (payload.toList ++ '.' :: ts) := by
  unfold ItsDangerous.Crypto.timestampUnsign at h
  split at h
  · rename_i sig ts part parts hsplit
    have hparts : token.toList.splitOn '.' = (part :: parts).reverse ++ [ts, sig] := by
      rw [← List.reverse_reverse (token.toList.splitOn '.'), hsplit]
      simp
    have hdotless : ∀ part ∈ token.toList.splitOn '.', '.' ∉ part :=
      fun part hpart => notMem_of_mem_splitOn hpart
    rw [hparts] at hdotless
    have hts : '.' ∉ ts := hdotless ts (by simp)
    have hsig : '.' ∉ sig := hdotless sig (by simp)
    have hvalue : (['.'].intercalate (part :: parts).reverse).splitOn '.' =
        (part :: parts).reverse :=
      List.splitOn_intercalate '.' (fun l hl => hdotless l (List.mem_append_left _ hl)) (by simp)
    have htoken : token.toList = ['.'].intercalate (part :: parts).reverse ++ '.' :: ts ++
        '.' :: sig := by
      have hwhole : ['.'].intercalate (token.toList.splitOn '.') = token.toList :=
        List.intercalate_splitOn '.'
      rw [← hwhole, hparts, ← hvalue, ← splitOn_token hts hsig, List.intercalate_splitOn, hvalue]
    unfold ItsDangerous.Crypto.unsignParts at h
    extract_lets expect at h
    split_ifs at h with hbad
    split at h
    · cases h
    · have hpayload : payload = String.ofList (['.'].intercalate (part :: parts).reverse) := by
        split at h
        · exact (Except.ok.inj h).symm
        · extract_lets age at h
          split_ifs at h
          exact (Except.ok.inj h).symm
      have hsame : sig = expect :=
        eq_of_asciiBytes (signature_chars c secret salt _) (not_not.mp hbad)
      rw [hpayload, String.toList_ofList]
      exact ⟨ts, sig, htoken, hts, hsig, hsame⟩
  · cases h

namespace Server

variable {srv : Server}

theorem authentic_of_loads {token : String} {fileToken : FileToken}
    (h : srv.loads token = .ok (some fileToken)) : srv.Authentic token fileToken := by
  unfold loads at h
  split at h
  · cases h
  · rename_i secret hsecret
    cases hunsign : srv.crypto.timestampUnsign srv.now token secret (some 432000) "itsdangerous"
        '.' with
    | error message =>
      rw [hunsign] at h
      cases h
    | ok payload =>
      rw [hunsign] at h
      obtain ⟨ts, sig, htoken, hts, hsig, hsame⟩ := parts_of_timestampUnsign hunsign
      exact ⟨secret, hsecret, payload.toList, ts, sig, htoken, hts, hsig, hsame, by
        rw [String.ofList_toList]
        exact h⟩

/-- A token says one thing only. -/
theorem Authentic.unique {token : String} {one two : FileToken} (h : srv.Authentic token one)
    (h' : srv.Authentic token two) : one = two := by
  obtain ⟨_, _, value, ts, sig, htoken, hts, hsig, -, hone⟩ := h
  obtain ⟨_, _, value', ts', sig', htoken', hts', hsig', -, htwo⟩ := h'
  have hsplit : value.splitOn '.' ++ [ts, sig] = value'.splitOn '.' ++ [ts', sig'] := by
    rw [← splitOn_token hts hsig, ← splitOn_token hts' hsig', ← htoken, htoken']
  obtain ⟨hvalue, -⟩ := List.append_inj' hsplit rfl
  have hsame : value = value' := by
    calc value = ['.'].intercalate (value.splitOn '.') := (List.intercalate_splitOn '.').symm
      _ = ['.'].intercalate (value'.splitOn '.') := by rw [hvalue]
      _ = value' := List.intercalate_splitOn '.'
  rw [hsame] at hone
  exact Option.some.inj (Except.ok.inj (hone.symm.trans htwo))

end Server

/-! ### Downloads -/

section Downloads

variable {srv : Server} {base : Platform} {p : Portal} {path token : String} {userId : Nat}

/-- The checks that a request for a file passes, but for the one of the full path. -/
structure AsksFor (srv : Server) (base : Platform) (p : Portal) (path token : String)
    (userId : Nat) (fileToken : FileToken) (file : File) : Prop where
  loaded : srv.loads token = .ok (some fileToken)
  user : fileToken.userId = userId
  notBlank : isNullOrWhiteSpace path = false
  underFile : equalsIgnoreCase (String.ofList (path.toList.take 5)) "file/" = true
  found : FileService.findFile base p.db path fileToken.fileId = some file
  allowed : FileService.isAllowed base p.db file fileToken.teamId = true
  stored : (p.disk (srv.fullPath base.mountPath path)).isSome = true

theorem checkToken_eq_ok_iff {fileToken : FileToken} :
    FileService.checkToken (srv.platform base) path token userId = .ok fileToken ↔
      srv.loads token = .ok (some fileToken) ∧ fileToken.userId = userId ∧
        isNullOrWhiteSpace path = false ∧
          equalsIgnoreCase (String.ofList (path.toList.take 5)) "file/" = true := by
  rw [FileService.checkToken, show (srv.platform base).loads token = srv.loads token from rfl]
  cases hload : srv.loads token with
  | error message => simp
  | ok loaded =>
    cases loaded with
    | none => simp
    | some loaded =>
      simp only [Except.ok.injEq, Option.some.injEq]
      constructor
      · intro h
        split_ifs at h with huser hblank hfile
        obtain rfl := Except.ok.inj h
        exact ⟨rfl, not_not.mp huser, by simpa using hblank, by simpa using hfile⟩
      · rintro ⟨rfl, huser, hblank, hfile⟩
        rw [if_neg (not_not.mpr huser), if_neg (by simp [hblank]), if_neg (by simp [hfile])]

theorem read_eq_ok_iff :
    (∃ result, FileService.read (srv.platform base) p path = .ok result) ↔
      FileService.isMounted base (srv.fullPath base.mountPath path) = true ∧
        (p.disk (srv.fullPath base.mountPath path)).isSome = true := by
  have hread : FileService.read (srv.platform base) p path =
      if FileService.isMounted base (srv.fullPath base.mountPath path) = true then
        (match p.disk (srv.fullPath base.mountPath path) with
          | none => .error "File not found"
          | some content =>
            .ok ⟨base.fileName (srv.fullPath base.mountPath path), content⟩)
      else .error "Invalid file path" := rfl
  rw [hread]
  cases hdisk : p.disk (srv.fullPath base.mountPath path) with
  | none =>
    refine iff_of_false ?_ fun h => by cases h.2
    rintro ⟨result, h⟩
    split_ifs at h
  | some content =>
    constructor
    · rintro ⟨result, h⟩
      split_ifs at h with hmounted
      exact ⟨hmounted, rfl⟩
    · rintro ⟨hmounted, -⟩
      exact ⟨_, if_pos hmounted⟩

theorem findFile_platform (base : Platform) :
    FileService.findFile (srv.platform base) = FileService.findFile base := rfl

theorem isAllowed_platform (base : Platform) :
    FileService.isAllowed (srv.platform base) = FileService.isAllowed base := rfl

/-- A file is sent exactly if the checks are passed and the full path begins with the mount. -/
theorem getFile_eq_ok_iff :
    (∃ result, FileService.getFile (srv.platform base) p path token userId = .ok result) ↔
      (∃ fileToken file, AsksFor srv base p path token userId fileToken file) ∧
        FileService.isMounted base (srv.fullPath base.mountPath path) = true := by
  constructor
  · rintro ⟨result, h⟩
    rw [FileService.getFile] at h
    cases hcheck : FileService.checkToken (srv.platform base) path token userId with
    | error message =>
      rw [hcheck] at h
      cases h
    | ok fileToken =>
      rw [hcheck] at h
      obtain ⟨hloaded, huser, hblank, hunder⟩ := checkToken_eq_ok_iff.mp hcheck
      cases hfound : FileService.findFile base p.db path fileToken.fileId with
      | none =>
        simp only [bind, Except.bind, findFile_platform, hfound] at h
        cases h
      | some file =>
        simp only [bind, Except.bind, findFile_platform, hfound] at h
        split_ifs at h with hallowed
        obtain ⟨hmounted, hstored⟩ := read_eq_ok_iff.mp ⟨result, h⟩
        exact ⟨⟨fileToken, file, hloaded, huser, hblank, hunder, hfound, hallowed, hstored⟩,
          hmounted⟩
  · rintro ⟨⟨fileToken, file, h⟩, hmounted⟩
    obtain ⟨result, hread⟩ := read_eq_ok_iff.mpr ⟨hmounted, h.stored⟩
    have hcheck : FileService.checkToken (srv.platform base) path token userId = .ok fileToken :=
      checkToken_eq_ok_iff.mpr ⟨h.loaded, h.user, h.notBlank, h.underFile⟩
    refine ⟨result, ?_⟩
    rw [FileService.getFile, hcheck]
    have hallowed :
        FileService.isAllowed (srv.platform base) p.db file fileToken.teamId = true := by
      rw [isAllowed_platform]
      exact h.allowed
    simp only [bind, Except.bind, findFile_platform, h.found, if_pos hallowed]
    exact hread

theorem open_of_isAllowed {db : Db} {file : File} {teamId : Option Nat}
    (h : FileService.isAllowed base db file teamId = true)
    (htype : file.type.any (equalsIgnoreCase · "challenge") = true) :
    ∃ challenge, file.challengeId.bind db.challenge = some challenge ∧
      Open base db challenge teamId := by
  rw [FileService.isAllowed, if_pos htype] at h
  cases hchallenge : file.challengeId.bind db.challenge with
  | none =>
    rw [hchallenge] at h
    cases h
  | some challenge =>
    simp only [hchallenge, Bool.and_eq_true, Bool.not_eq_true'] at h
    obtain ⟨hshown, hmet⟩ := h
    refine ⟨challenge, rfl, hshown, ?_⟩
    intro requirements hrequirements hblank
    rw [FileService.prerequisitesMet, Option.mem_def.mp hrequirements] at hmet
    simp only [hblank, Bool.false_eq_true, if_false] at hmet
    split_ifs at hmet with hteam
    cases hread : FileService.readPrerequisites base requirements with
    | none => simp [hread] at hmet
    | some ids =>
      simp only [hread] at hmet
      refine ⟨ids, rfl, fun id hid hexists => ?_⟩
      exact List.all_eq_true.mp hmet id (List.mem_filter.mpr ⟨hid, hexists⟩)

theorem AsksFor.granted {fileToken : FileToken} {file : File}
    (h : AsksFor srv base p path token userId fileToken file)
    (hlocation : file.location = some path) :
    Granted srv base p.db path token userId fileToken file where
  authentic := Server.authentic_of_loads h.loaded
  user := h.user
  record := List.mem_of_find?_eq_some h.found
  id_eq := by
    have hfound := List.find?_some h.found
    simp only [Bool.and_eq_true, decide_eq_true_eq] at hfound
    exact hfound.2
  location := hlocation
  challenge := open_of_isAllowed h.allowed

/-- The path of a request that passes the checks is relative. -/
theorem AsksFor.relative {fileToken : FileToken} {file : File}
    (h : AsksFor srv base p path token userId fileToken file) : path.toList.head? ≠ some '/' := by
  intro hslash
  have hunder := h.underFile
  obtain ⟨rest, hpath⟩ := List.head?_eq_some_iff.mp hslash
  rw [hpath] at hunder
  simp [equalsIgnoreCase] at hunder

/-- Where the database takes the location of the token's record for the path, the location is
spelled like the path. -/
def SpelledAlike (srv : Server) (base : Platform) (db : Db) (path token : String) : Prop :=
  ∀ fileToken, srv.loads token = .ok (some fileToken) → ∀ file ∈ db.files,
    file.id = fileToken.fileId → file.location.any (base.collation.eq · path) = true →
      file.location = some path

end Downloads

/-- A server whose tokens are all for one user and file. -/
def singleToken : Server where
  crypto := ItsDangerous.Crypto.transparent
  privateKey := some "k"
  now := 0
  currentDirectory := "/"
  deserializeToken _ := .ok (some ⟨1, none, 7⟩)

theorem loads_singleToken :
    singleToken.loads (singleToken.crypto.timestampSign 0 "" "k" "itsdangerous" '.') =
      .ok (some ⟨1, none, 7⟩) := by
  have hunsign : singleToken.crypto.timestampUnsign 0
      (singleToken.crypto.timestampSign 0 "" "k" "itsdangerous" '.') "k" (some 432000)
      "itsdangerous" '.' = .ok "" := by
    rw [ItsDangerous.Crypto.timestampUnsign_timestampSign, ItsDangerous.Crypto.unsignParts,
      if_neg (by simp), ItsDangerous.b64UrlDecode_b64Url]
    decide
  simp only [Server.loads, singleToken] at hunsign ⊢
  rw [hunsign]
  rfl

/-- The mount without a slash at its end. -/
def mountedAtNfs : Platform := { plainPlatform with mountPath := "/mnt/nfs" }

/-- A record whose location leads to the directory beside the mount. -/
def backup : Portal where
  db :=
    { board := {
        users_pk := Board.unsetFlag.users_pk
        users_pos := Board.unsetFlag.users_pos
        brackets_pk := Board.unsetFlag.brackets_pk
        challenges_pk := Board.unsetFlag.challenges_pk
        submissions_pk := Board.unsetFlag.submissions_pk
        solves_fk := Board.unsetFlag.solves_fk
        solves_pos := Board.unsetFlag.solves_pos
        awards_pos := Board.unsetFlag.awards_pos }
      files := [⟨7, some "standard", some "file/../../nfs-old/k", none⟩] }
  disk fullPath := if fullPath = "/mnt/nfs-old/k" then some "secret" else none

end Fctf.Contest
