import Fctf.Scoring.Flags
import Fctf.Lib.Run
import Fctf.Lib.Table
import Mathlib.Data.List.DropRight
import Mathlib.Data.List.Infix
import Mathlib.Logic.Function.Basic

/-!
The files that the management platform keeps: a row of the database for each, and its bytes under
the mount of the NFS uploader. Names and paths are lists of characters; the paths of the store are
below the mount.
-/

namespace Fctf.StoredFiles

/-! ### Paths -/

/-- The root that `PurePath` finds at the start of a path. -/
def root : List Char → List (List Char)
  | '/' :: '/' :: '/' :: _ => [['/']]
  | '/' :: '/' :: _ => [['/', '/']]
  | '/' :: _ => [['/']]
  | _ => []

/-- `PurePath(path).parts`. -/
def parts (path : List Char) : List (List Char) :=
  root path ++ (path.splitOn '/').filter fun part => part ≠ [] && part ≠ ['.']

/-- `PurePath(path).suffix`: a dot at either end of the name starts none. -/
def suffix (path : List Char) : List Char :=
  let name := ((path.splitOn '/').filter fun part => part ≠ [] && part ≠ ['.']).getLastD []
  let extension := name.reverse.takeWhile (· ≠ '.')
  if extension = [] ∨ name.length ≤ extension.length + 1 then [] else '.' :: extension.reverse

/-- `os.path.join` of two paths. -/
def join (path name : List Char) : List Char :=
  if name.head? = some '/' then name
  else if path = [] ∨ path.getLast? = some '/' then path ++ name
  else path ++ '/' :: name

/-- `os.path.dirname` of a path whose last slash stands alone and is not the first character. -/
def dirname (path : List Char) : List Char := ((path.reverse.dropWhile (· ≠ '/')).drop 1).reverse

/-- The prefix of the uploader. -/
def prefixDirectory : List Char := ['f', 'i', 'l', 'e']

/-! ### Rows, bytes and uploads -/

inductive FileType
  | standard | challenge
  deriving DecidableEq

/-- A row of the table `files`, whatever stands for locations and hashes. -/
structure FileRow (L H : Type) where
  id : Nat
  type : FileType
  location : L
  sha1sum : H
  challenge_id : Option Nat
  deriving DecidableEq

/-- What `upload_file` sets. -/
structure ModelArgs (L H : Type) where
  type : FileType
  location : L
  sha1sum : H
  challenge_id : Option Nat

section Record

variable {L H : Type}

/-- A new row. -/
def ModelArgs.row (args : ModelArgs L H) (id : Nat) : FileRow L H where
  id := id
  type := args.type
  location := args.location
  sha1sum := args.sha1sum
  challenge_id := args.challenge_id

theorem ModelArgs.id_row (args : ModelArgs L H) (id : Nat) : (args.row id).id = id := rfl

/-- `setattr` for each argument. Only a row that was loaded as a file of a challenge has the
column `challenge_id`. -/
def FileRow.setattr (row : FileRow L H) (args : ModelArgs L H) : FileRow L H where
  id := row.id
  type := args.type
  location := args.location
  sha1sum := args.sha1sum
  challenge_id :=
    if row.type = .challenge ∧ args.type = .challenge then args.challenge_id else row.challenge_id

theorem FileRow.id_setattr (args : ModelArgs L H) (row : FileRow L H) :
    (row.setattr args).id = row.id := rfl

/-- The end of `upload_file`: the row that is found under the location is taken over, else there
is a new one. -/
def recordFile (same : L → L → Bool) (files : Table (FileRow.id (L := L) (H := H)))
    (args : ModelArgs L H) : Nat × Table (FileRow.id (L := L) (H := H)) :=
  match files.rows.find? fun row => same row.location args.location with
  | some existing =>
    (existing.id, files.update existing.id (·.setattr args) (FileRow.id_setattr args))
  | none => (files.nextKey, files.add args.row args.id_row)

variable {same : L → L → Bool} {files : Table (FileRow.id (L := L) (H := H))}

theorem recordFile_of_some (args : ModelArgs L H) {existing : FileRow L H}
    (h : (files.rows.find? fun row => same row.location args.location) = some existing) :
    recordFile same files args =
      (existing.id, files.update existing.id (·.setattr args) (FileRow.id_setattr args)) := by
  rw [recordFile, h]

theorem recordFile_of_none (args : ModelArgs L H)
    (h : (files.rows.find? fun row => same row.location args.location) = none) :
    recordFile same files args = (files.nextKey, files.add args.row args.id_row) := by
  rw [recordFile, h]

end Record

/-- A row whose location is a text. -/
abbrev Row := FileRow (List Char) String

structure StoredFile where
  path : List Char
  bytes : List UInt8
  deriving DecidableEq

structure Site where
  files : Table (FileRow.id (L := List Char) (H := String)) := {}
  store : Table StoredFile.path := {}

/-- The arguments of `upload_file`, what `os.urandom` gives, and the challenges there are. -/
structure Upload where
  filename : List Char
  bytes : List UInt8
  type : List Char := ['s', 't', 'a', 'n', 'd', 'a', 'r', 'd']
  location : Option (List Char) := none
  challenge_id : Option (List Char) := none
  challenge : Option (List Char) := none
  file_upload : Option (List Char) := none
  urandom : Vector UInt8 16 := Vector.replicate 16 0
  challenges : Nat → Bool := fun _ => false

/-- What the platform is configured for, and the functions of its libraries. -/
structure Platform where
  nfkd : List Char → List Char
  lower : List Char → List Char
  /-- The value of a decimal digit, of any script. -/
  digit : Char → Option Nat
  sha1 : List UInt8 → String
  collation : Collation
  /-- `UPLOAD_ALLOWED_EXTENSIONS`, entry by entry. -/
  configured : Option (List (List Char)) := none

/-! ### Names -/

/-- `string.ascii_letters`, the digits, and the hyphen, underscore and dot. -/
def isCleanChar (c : Char) : Bool := c.isAlphanum || c = '-' || c = '_' || c = '.'

def isDotOrUnderscore (c : Char) : Bool := c = '.' || c = '_'

def hexDigits (b : UInt8) : List Char :=
  [Nat.digitChar (b.toNat / 16), Nat.digitChar (b.toNat % 16)]

def hexencode (bytes : Vector UInt8 16) : List Char := bytes.toList.flatMap hexDigits

def defaultUploadExtensions : List String :=
  ["txt", "md", "csv", "json", "yaml", "yml", "xml", "log", "pdf", "png", "jpg", "jpeg", "gif",
    "webp", "ico", "bmp", "zip", "7z", "tar", "gz", "bz2", "xz", "rar", "pcap", "pcapng", "bin",
    "exe", "elf", "dll", "so", "wasm", "py", "c", "cpp", "h", "java", "class", "jar", "sql", "db",
    "sqlite", "pem", "pub", "key", "sh", "ps1", "doc", "docx", "xls", "xlsx", "ppt", "pptx", "mp3",
    "wav", "ogg", "mp4", "webm", "woff", "woff2", "ttf", "css"]

namespace Platform

variable (p : Platform)

/-- `secure_filename` of werkzeug. -/
def secureFilename (filename : List Char) : List Char :=
  let ascii := (p.nfkd filename).filter fun c => c.toNat < 128
  let spaced := ascii.map fun c => if c = '/' then ' ' else c
  let words := (spaced.splitOnP Flags.Platform.isSpace).filter (· ≠ [])
  let kept := (List.intercalate ['_'] words).filter isCleanChar
  (kept.dropWhile isDotOrUnderscore).rdropWhile isDotOrUnderscore

def allowedExtensions : List (List Char) :=
  match p.configured with
  | none => defaultUploadExtensions.map String.toList
  | some entries => entries.map fun entry => (p.lower entry).dropWhile (· = '.')

def validateUploadFilename (filename : List Char) : Bool :=
  Flags.Platform.strip filename ≠ [] &&
    filename.all (fun c => 32 ≤ c.toNat && c.toNat ≠ 127) &&
    p.allowedExtensions.contains
      ((p.lower (suffix (Flags.Platform.strip filename))).dropWhile (· = '.'))

def positiveId (value : List Char) : Option Nat := do
  guard (value ≠ [] ∧ value.length ≤ 10)
  let digits ← value.mapM p.digit
  let n := digits.foldl (fun n d => 10 * n + d) 0
  guard (0 < n ∧ n ≤ 2147483647)
  return n

/-- `reference` to a challenge, required. -/
def reference (value : Option (List Char)) (challenges : Nat → Bool) : Option Nat :=
  (value.bind p.positiveId).filter challenges

/-! ### The NFS uploader -/

/-- The directory and the name, below the prefix; `none` is an exception. -/
def filePath (filename : List Char) (path : Option (List Char)) (urandom : Vector UInt8 16) :
    Option (List Char) := do
  guard (filename ≠ [])
  let directory := match path with
    | none => hexencode urandom
    | some path =>
      let secure := p.secureFilename path
      (if secure = [] then hexencode urandom else secure).filter (· ≠ '.')
  let name := ((p.secureFilename filename).map fun c => if c = ' ' then '_' else c).filter
    isCleanChar
  guard (name ≠ [])
  return join directory name

/-- `NFSUploader.upload` and `store`: a file that is there is written over. -/
def upload (store : Table StoredFile.path) (bytes : List UInt8) (filename : List Char)
    (path : Option (List Char)) (urandom : Vector UInt8 16) :
    Option (List Char × Table StoredFile.path) :=
  (p.filePath filename path urandom).map fun file_path =>
    let location := join prefixDirectory file_path
    (location, store.put ⟨location, bytes⟩)

end Platform

/-- Lies below a directory. -/
def isUnder (directory path : List Char) : Bool := (directory ++ ['/']).isPrefixOf path

def isdir (store : Table StoredFile.path) (path : List Char) : Bool :=
  store.rows.any fun file => isUnder path file.path

def pathExists (store : Table StoredFile.path) (path : List Char) : Bool :=
  (store.find path).isSome || isdir store path

/-- The directory that `NFSUploader.delete` takes a file for a part of. -/
def fullDirPath (filename : List Char) : Option (List Char) :=
  match parts filename with
  | [] => none
  | [first] => some (join prefixDirectory first)
  | first :: second :: _ =>
    some (join prefixDirectory (if first = prefixDirectory then second else first))

/-- `NFSUploader.delete`. -/
def delete (store : Table StoredFile.path) (filename : List Char) :
    Option (Table StoredFile.path) :=
  if pathExists store filename then
    (fullDirPath filename).map fun directory =>
      if isdir store directory then store.filter fun file => !isUnder directory file.path
      else store.filter fun file => file.path ≠ filename
  else some store

/-! ### `upload_file` and `delete_file` -/

/-- `require_supported_type` for files. -/
def requireSupportedType (type : List Char) : Option FileType :=
  if type = ['s', 't', 'a', 'n', 'd', 'a', 'r', 'd'] then some .standard
  else if type = ['c', 'h', 'a', 'l', 'l', 'e', 'n', 'g', 'e'] then some .challenge
  else none

def description : List Char := ['d', 'e', 's', 'c', 'r', 'i', 'p', 't', 'i', 'o', 'n']

/-- The directory and the name that a location gives, else the name of the upload. -/
def Upload.target (u : Upload) : Option (Option (List Char) × List Char) :=
  match u.location with
  | none | some [] => some (none, u.filename)
  | some location =>
    match parts location with
    | [parent, filename] => some (some parent, filename)
    | _ => none

/-- `kwargs.get("challenge_id") or kwargs.get("challenge")`. -/
def Upload.givenChallenge (u : Upload) : Option (List Char) :=
  match u.challenge_id with
  | none | some [] => u.challenge
  | some value => some value

namespace Platform

variable (p : Platform)

/-- The checks of an upload: the type and the challenge of its row, its directory and name. -/
def checked (u : Upload) :
    Option (FileType × Option Nat × Option (List Char) × List Char) := do
  let file_type ← requireSupportedType u.type
  let challenge_id ←
    if u.givenChallenge.isSome ∨ file_type = .challenge ∨ u.file_upload = some description then
      (p.reference u.givenChallenge u.challenges).map some
    else some none
  let (parent, filename) ← u.target
  guard (p.validateUploadFilename filename)
  let file_type := if u.file_upload = some description then .challenge else file_type
  return (file_type, if file_type = .challenge then challenge_id else none, parent, filename)

/-- The comparison of locations in the database. -/
def sameLocation (location other : List Char) : Bool :=
  p.collation.eq (String.ofList location) (String.ofList other)

/-- `upload_file`: the row that it returns and what it leaves. `none` is an exception. -/
def uploadFile (s : Site) (u : Upload) : Option (Nat × Site) := do
  let (type, challenge_id, parent, filename) ← p.checked u
  let (location, store) ← p.upload s.store u.bytes filename parent u.urandom
  let (id, files) := recordFile p.sameLocation s.files
    ⟨type, location, p.sha1 u.bytes, challenge_id⟩
  return (id, ⟨files, store⟩)

end Platform

/-- `delete_file`; `none` is an exception, or the answer that there is no such row. -/
def deleteFile (s : Site) (fileId : Nat) : Option Site := do
  let f ← s.files.find fileId
  let store ← delete s.store f.location
  return ⟨s.files.filter fun row => row.id ≠ fileId, store⟩

inductive Event
  | upload (u : Upload)
  | delete (fileId : Nat)

/-- The bytes of the latest upload that a row was recorded for. -/
abbrev Latest := Nat → Option (List UInt8)

namespace Platform

variable (p : Platform)

def step (s : Site) : Event → Option Site
  | .upload u => (p.uploadFile s u).map Prod.snd
  | .delete fileId => deleteFile s fileId

def observe (latest : Latest) (s : Site) (e : Event) (_ : Site) : Latest :=
  match e with
  | .upload u =>
    match p.uploadFile s u with
    | some (id, _) => Function.update latest id (some u.bytes)
    | none => latest
  | .delete fileId => Function.update latest fileId none

/-- Each row's location holds the bytes of its latest upload, and its hash is theirs. -/
def Intact (t : Site × Latest) : Prop :=
  ∀ row ∈ t.1.files.rows,
    (t.1.store.find row.location).map StoredFile.bytes = t.2 row.id ∧
      (t.2 row.id).map p.sha1 = some row.sha1sum

instance (t : Site × Latest) : Decidable (p.Intact t) :=
  inferInstanceAs (Decidable (∀ row ∈ t.1.files.rows, _))

end Platform

/-- A row that is deleted has its directory to itself. -/
def DeletesAlone (t : Site × Latest) : Event → Prop
  | .upload _ => True
  | .delete fileId =>
    ∀ row ∈ t.1.files.rows, row.id = fileId →
      ∀ other ∈ t.1.files.rows, dirname other.location = dirname row.location →
        other.id = fileId

/-! ### Locations -/

/-- What the uploader makes a location of: one directory and a name below the prefix. -/
structure Located (directory name location : List Char) : Prop where
  location_eq : location = prefixDirectory ++ '/' :: (directory ++ '/' :: name)
  directory_ne : directory ≠ []
  slash_notMem : '/' ∉ directory
  dot_notMem : '.' ∉ directory
  name_ne : name ≠ []
  name_slash : '/' ∉ name
  name_head : name.head? ≠ some '.'

theorem root_of_ne {path : List Char} (h : path.head? ≠ some '/') : root path = [] := by
  unfold root
  split <;> simp_all

theorem parts_location {directory name location : List Char}
    (h : Located directory name location) :
    parts location = [prefixDirectory, directory, name] := by
  have hdirectory : '/' ∉ prefixDirectory := by decide
  have hsplit : location.splitOn '/' = [prefixDirectory, directory, name] := by
    rw [h.location_eq, List.splitOn_append_cons_self_of_not_mem hdirectory,
      List.splitOn_append_cons_self_of_not_mem h.slash_notMem,
      List.splitOn_eq_singleton h.name_slash]
  have hroot : root location = [] := root_of_ne (by simp [h.location_eq, prefixDirectory])
  have hdirectory : directory ≠ ['.'] := fun hdot => h.dot_notMem (by simp [hdot])
  have hname : name ≠ ['.'] := fun hdot => h.name_head (by simp [hdot])
  rw [parts, hroot, hsplit]
  simp [prefixDirectory, h.directory_ne, h.name_ne, hdirectory, hname]

theorem dirname_location {directory name location : List Char}
    (h : Located directory name location) :
    dirname location = prefixDirectory ++ '/' :: directory := by
  have hreverse : location.reverse =
      name.reverse ++ '/' :: (directory.reverse ++ '/' :: prefixDirectory.reverse) := by
    simp [h.location_eq]
  have hname : ∀ c ∈ name.reverse, (decide (c ≠ '/')) = true := by
    intro c hc
    have hne : c ≠ '/' := fun heq => h.name_slash (heq ▸ List.mem_reverse.mp hc)
    simpa using hne
  rw [dirname, hreverse, List.dropWhile_append_of_pos hname]
  simp

theorem fullDirPath_location {directory name location : List Char}
    (h : Located directory name location) :
    fullDirPath location = some (dirname location) := by
  have hhead : directory.head? ≠ some '/' := by
    intro hslash
    exact h.slash_notMem (List.mem_of_mem_head? hslash)
  rw [fullDirPath, parts_location h, dirname_location h]
  simp [join, prefixDirectory, hhead]

/-- What lies under the directory of a location. -/
theorem isUnder_dirname_iff {directory name location other_directory other_name other : List Char}
    (h : Located directory name location)
    (hother : Located other_directory other_name other) :
    isUnder (dirname location) other = true ↔ dirname other = dirname location := by
  rw [dirname_location h, dirname_location hother, isUnder, hother.location_eq,
    List.isPrefixOf_iff_prefix]
  simp only [List.append_assoc, List.cons_append, List.prefix_append_right_inj,
    List.prefix_cons_inj, List.append_cancel_left_eq, List.cons.injEq, true_and]
  constructor
  · rintro ⟨rest, hrest⟩
    rw [List.append_assoc, List.singleton_append] at hrest
    have hsplit := congrArg (fun path => (path.splitOn '/').head?) hrest
    simpa [List.splitOn_append_cons_self_of_not_mem h.slash_notMem,
      List.splitOn_append_cons_self_of_not_mem hother.slash_notMem, eq_comm] using hsplit
  · rintro rfl
    exact ⟨other_name, by simp⟩

/-! ### The names that the uploader makes -/

theorem hexencode_mem {bytes : Vector UInt8 16} {c : Char} (hc : c ∈ hexencode bytes) :
    c ≠ '/' ∧ c ≠ '.' := by
  have hdigit : ∀ n < 16, Nat.digitChar n ≠ '/' ∧ Nat.digitChar n ≠ '.' := by decide
  obtain ⟨b, -, hb⟩ := List.mem_flatMap.mp hc
  have hlt : b.toNat < 256 := b.toNat_lt
  simp only [hexDigits, List.mem_cons, List.not_mem_nil, or_false] at hb
  rcases hb with rfl | rfl
  · exact hdigit _ (by omega)
  · exact hdigit _ (by omega)

theorem hexencode_ne_nil (bytes : Vector UInt8 16) : hexencode bytes ≠ [] := by
  intro hnil
  have hlength := congrArg List.length hnil
  simp [hexencode, hexDigits] at hlength

theorem hexencode_filter (bytes : Vector UInt8 16) :
    (hexencode bytes).filter (· ≠ '.') = hexencode bytes := by
  rw [List.filter_eq_self]
  intro c hc
  simpa using (hexencode_mem hc).2

/-- A name that is secure has clean characters and does not start with a dot. -/
structure Secure (name : List Char) : Prop where
  clean : ∀ c ∈ name, isCleanChar c = true
  head : ∀ c ∈ name.head?, isDotOrUnderscore c = false

theorem secure_secureFilename (p : Platform) (filename : List Char) :
    Secure (p.secureFilename filename) := by
  unfold Platform.secureFilename
  extract_lets ascii spaced words kept
  have hkept : ∀ c ∈ kept, isCleanChar c = true := fun c hc => (List.mem_filter.mp hc).2
  have hkeptPart : (kept.dropWhile isDotOrUnderscore).rdropWhile isDotOrUnderscore <+:
      kept.dropWhile isDotOrUnderscore := List.rdropWhile_prefix _ _
  constructor
  · intro c hc
    exact hkept c ((List.dropWhile_sublist _).subset (hkeptPart.subset hc))
  · intro c hc
    have hhead : (kept.dropWhile isDotOrUnderscore).head? = some c := by
      obtain ⟨rest, hrest⟩ := List.head?_eq_some_iff.mp hc
      obtain ⟨removed, hremoved⟩ := hkeptPart
      rw [← hremoved, hrest]
      rfl
    have hnot := List.head?_dropWhile_not isDotOrUnderscore kept
    rw [hhead] at hnot
    exact hnot

theorem Secure.slash_notMem {name : List Char} (h : Secure name) : '/' ∉ name := by
  intro hmem
  cases h.clean '/' hmem

/-- The uploader's own filter keeps a secure name as it is. -/
theorem Secure.filtered {name : List Char} (h : Secure name) :
    (name.map fun c => if c = ' ' then '_' else c).filter isCleanChar = name := by
  have hmap : (name.map fun c => if c = ' ' then '_' else c) = name := by
    refine (List.map_congr_left fun c hc => ?_).trans (List.map_id name)
    rw [if_neg, id]
    rintro rfl
    cases h.clean ' ' hc
  rw [hmap, List.filter_eq_self]
  exact h.clean

theorem Secure.head_ne_dot {name : List Char} (h : Secure name) : name.head? ≠ some '.' := by
  intro hdot
  cases h.head '.' hdot

/-- Without its dots, the name of a directory is not empty. -/
theorem Secure.filter_ne_nil {name : List Char} (h : Secure name) (hne : name ≠ []) :
    name.filter (· ≠ '.') ≠ [] := by
  cases name with
  | nil => exact absurd rfl hne
  | cons c rest =>
    have hdot : c ≠ '.' := by
      rintro rfl
      exact h.head_ne_dot rfl
    simp [hdot]

/-- The directory of an upload. -/
theorem directory_ok (p : Platform) (path : Option (List Char)) (urandom : Vector UInt8 16)
    (directory : List Char)
    (h : directory = match path with
      | none => hexencode urandom
      | some path =>
        (if p.secureFilename path = [] then hexencode urandom else p.secureFilename path).filter
          (· ≠ '.')) :
    directory ≠ [] ∧ '/' ∉ directory ∧ '.' ∉ directory := by
  have hhex : hexencode urandom ≠ [] ∧ '/' ∉ hexencode urandom ∧ '.' ∉ hexencode urandom :=
    ⟨hexencode_ne_nil urandom, fun hmem => (hexencode_mem hmem).1 rfl,
      fun hmem => (hexencode_mem hmem).2 rfl⟩
  cases path with
  | none => exact h ▸ hhex
  | some path =>
    have hsecure : Secure (p.secureFilename path) := secure_secureFilename p path
    by_cases hnil : p.secureFilename path = []
    · simp only [if_pos hnil, hexencode_filter] at h
      exact h ▸ hhex
    · simp only [if_neg hnil] at h
      subst h
      refine ⟨hsecure.filter_ne_nil hnil, ?_, ?_⟩
      · exact fun hmem => hsecure.slash_notMem (List.mem_filter.mp hmem).1
      · simp

theorem located_filePath {p : Platform} {filename : List Char} {path : Option (List Char)}
    {urandom : Vector UInt8 16} {file_path : List Char}
    (h : p.filePath filename path urandom = some file_path) :
    ∃ directory name, Located directory name (join prefixDirectory file_path) := by
  have hname : Secure (p.secureFilename filename) := secure_secureFilename p filename
  unfold Platform.filePath at h
  extract_lets directory name at h
  obtain ⟨hne, hslash, hdot⟩ := directory_ok p path urandom directory rfl
  have hsame : name = p.secureFilename filename := hname.filtered
  clear_value name directory
  simp only [Option.bind_eq_bind, Option.bind_eq_some_iff, Option.pure_def, Option.some.injEq,
    Option.guard_eq_some', exists_const] at h
  obtain ⟨-, hnameNe, rfl⟩ := h
  rw [hsame] at hnameNe ⊢
  have hdirectoryHead : directory.head? ≠ some '/' :=
    fun hhead => hslash (List.mem_of_mem_head? hhead)
  have hdirectoryLast : directory.getLast? ≠ some '/' :=
    fun hlast => hslash (List.mem_of_getLast? hlast)
  have hnameHead : (p.secureFilename filename).head? ≠ some '/' :=
    fun hhead => hname.slash_notMem (List.mem_of_mem_head? hhead)
  refine ⟨directory, p.secureFilename filename, ?_, hne, hslash, hdot, hnameNe,
    hname.slash_notMem, hname.head_ne_dot⟩
  have hinner : join directory (p.secureFilename filename) =
      directory ++ '/' :: p.secureFilename filename := by
    simp [join, hnameHead, hne, hdirectoryLast]
  rw [hinner]
  cases directory with
  | nil => exact absurd rfl hne
  | cons c rest =>
    have hc : c ≠ '/' := by
      rintro rfl
      exact hdirectoryHead rfl
    simp [join, prefixDirectory, hc]

/-! ### What an upload leaves -/

/-- Locations are what the uploader makes, and no two rows have one that the database takes for
equal. -/
structure Sound (p : Platform) (s : Site) : Prop where
  located : ∀ row ∈ s.files.rows, ∃ directory name, Located directory name row.location
  distinct : ∀ row ∈ s.files.rows, ∀ other ∈ s.files.rows,
    p.collation.eq (String.ofList row.location) (String.ofList other.location) = true →
      row.id = other.id

/-- The row that an upload returns takes the place of the one with its id, if there is one; the
database takes no other row's location for its own. -/
structure Recorded (p : Platform) (s : Site) (u : Upload) (row : Row) (t : Site) : Prop where
  located : ∃ directory name, Located directory name row.location
  sha1sum_eq : row.sha1sum = p.sha1 u.bytes
  store_eq : t.store = s.store.put ⟨row.location, u.bytes⟩
  mem_iff : ∀ other, other ∈ t.files.rows ↔
    other = row ∨ (other ∈ s.files.rows ∧ other.id ≠ row.id)
  apart : ∀ other ∈ s.files.rows, other.id ≠ row.id →
    p.collation.eq (String.ofList other.location) (String.ofList row.location) = false

theorem recorded_uploadFile {p : Platform} {s t : Site} {u : Upload} {id : Nat}
    (hs : Sound p s) (h : p.uploadFile s u = some (id, t)) :
    ∃ row, row.id = id ∧ Recorded p s u row t := by
  unfold Platform.uploadFile at h
  simp only [Option.bind_eq_bind, Option.bind_eq_some_iff, Prod.exists, Platform.upload,
    Option.map_eq_some_iff, Prod.mk.injEq] at h
  obtain ⟨type, challenge_id, parent, filename, -, location, store,
    ⟨file_path, hpath, rfl, rfl⟩, h⟩ := h
  have hlocated := located_filePath hpath
  generalize hargs : (⟨type, join prefixDirectory file_path, p.sha1 u.bytes, challenge_id⟩ :
    ModelArgs (List Char) String) = args at h
  have hlocation : join prefixDirectory file_path = args.location := hargs ▸ rfl
  have hsha1 : args.sha1sum = p.sha1 u.bytes := hargs ▸ rfl
  rw [hlocation] at h hlocated
  cases hexisting : s.files.rows.find? fun row => p.sameLocation row.location args.location with
  | some existing =>
    rw [recordFile_of_some args hexisting] at h
    simp only [Option.pure_def, Option.some.injEq, Prod.mk.injEq] at h
    obtain ⟨rfl, rfl⟩ := h
    have hmem : existing ∈ s.files.rows := List.mem_of_find?_eq_some hexisting
    have hsame := List.find?_some hexisting
    refine ⟨existing.setattr args, rfl, hlocated, hsha1, rfl, ?_, ?_⟩
    · intro other
      change
        other ∈ (s.files.update existing.id (·.setattr args) (FileRow.id_setattr args)).rows ↔ _
      exact Table.mem_update_of_mem hmem
    · intro other hother hne
      by_contra hequal
      rw [Bool.not_eq_false] at hequal
      have hchain := p.collation.trans _ _ _ hequal (p.collation.symm _ _ hsame)
      exact hne (hs.distinct other hother existing hmem hchain)
  | none =>
    rw [recordFile_of_none args hexisting] at h
    simp only [Option.pure_def, Option.some.injEq, Prod.mk.injEq] at h
    obtain ⟨rfl, rfl⟩ := h
    have hnew : ∀ other ∈ s.files.rows, other.id ≠ s.files.nextKey :=
      Table.find_eq_none.mp s.files.find_nextKey
    refine ⟨args.row s.files.nextKey, rfl, hlocated, hsha1, rfl, ?_, ?_⟩
    · intro other
      rw [Table.mem_add, or_comm]
      exact or_congr_right (and_iff_left_of_imp (hnew other)).symm
    · intro other hother _
      exact Bool.eq_false_of_not_eq_true (List.find?_eq_none.mp hexisting other hother)

/-! ### Steps -/

/-- The rows agree with the bytes of their latest uploads. -/
structure Invariant (p : Platform) (t : Site × Latest) : Prop where
  sound : Sound p t.1
  recorded : ∀ row ∈ t.1.files.rows, (t.2 row.id).map p.sha1 = some row.sha1sum

variable {p : Platform}

theorem invariant_upload {s t : Site} {latest : Latest} {u : Upload} {row : Row}
    (h : Invariant p (s, latest)) (hrow : Recorded p s u row t) :
    Invariant p (t, Function.update latest row.id (some u.bytes)) := by
  refine ⟨⟨?_, ?_⟩, ?_⟩
  · intro other hother
    rcases (hrow.mem_iff other).mp hother with rfl | ⟨hold, -⟩
    · exact hrow.located
    · exact h.sound.located other hold
  · intro one hone two htwo hequal
    rcases (hrow.mem_iff one).mp hone with rfl | ⟨holdOne, hneOne⟩ <;>
      rcases (hrow.mem_iff two).mp htwo with rfl | ⟨holdTwo, hneTwo⟩
    · rfl
    · have hapart := hrow.apart two holdTwo hneTwo
      rw [p.collation.symm _ _ hequal] at hapart
      cases hapart
    · have hapart := hrow.apart one holdOne hneOne
      rw [hequal] at hapart
      cases hapart
    · exact h.sound.distinct one holdOne two holdTwo hequal
  · intro other hother
    rcases (hrow.mem_iff other).mp hother with rfl | ⟨hold, hne⟩
    · simp [hrow.sha1sum_eq]
    · dsimp only
      rw [Function.update_of_ne hne]
      exact h.recorded other hold

theorem intact_upload {s t : Site} {latest : Latest} {u : Upload} {row : Row}
    (hintact : p.Intact (s, latest)) (hrow : Recorded p s u row t) :
    p.Intact (t, Function.update latest row.id (some u.bytes)) := by
  intro other hother
  rcases (hrow.mem_iff other).mp hother with rfl | ⟨hold, hne⟩
  · simp [hrow.store_eq, Table.find_put, hrow.sha1sum_eq]
  · have hlocation : other.location ≠ row.location := by
      intro heq
      have hapart := hrow.apart other hold hne
      rw [heq, p.collation.refl] at hapart
      cases hapart
    dsimp only
    rw [Function.update_of_ne hne, hrow.store_eq, Table.find_put, if_neg hlocation]
    exact hintact other hold

/-- A row whose bytes are there takes the whole directory with it. -/
theorem delete_location {store : Table StoredFile.path} {directory name location : List Char}
    (h : Located directory name location) (hfound : (store.find location).isSome) :
    delete store location =
      some (store.filter fun file => !isUnder (dirname location) file.path) := by
  obtain ⟨file, hfile⟩ := Option.isSome_iff_exists.mp hfound
  have hdir : isdir store (dirname location) = true := by
    refine List.any_eq_true.mpr ⟨file, Table.mem_of_find hfile, ?_⟩
    rw [show file.path = location from Table.key_of_find hfile]
    exact (isUnder_dirname_iff h h).mpr rfl
  rw [delete, if_pos (by simp [pathExists, hfound]), fullDirPath_location h, Option.map_some,
    if_pos hdir]

/-- What a deletion finds and leaves, of a site that is intact. -/
theorem deleteFile_eq_some_iff {s t : Site} {latest : Latest} (h : Invariant p (s, latest))
    (hintact : p.Intact (s, latest)) {fileId : Nat} :
    deleteFile s fileId = some t ↔
      ∃ row ∈ s.files.rows, row.id = fileId ∧
        t = ⟨s.files.filter fun other => other.id ≠ fileId,
          s.store.filter fun file => !isUnder (dirname row.location) file.path⟩ := by
  have hdelete : ∀ row ∈ s.files.rows, delete s.store row.location =
      some (s.store.filter fun file => !isUnder (dirname row.location) file.path) := by
    intro row hrow
    obtain ⟨directory, name, hlocated⟩ := h.sound.located row hrow
    obtain ⟨hbytes, hhash⟩ := hintact row hrow
    refine delete_location hlocated ?_
    obtain ⟨bytes, hlatest, -⟩ := Option.map_eq_some_iff.mp hhash
    rw [hlatest] at hbytes
    obtain ⟨file, hfile, -⟩ := Option.map_eq_some_iff.mp hbytes
    exact Option.isSome_iff_exists.mpr ⟨file, hfile⟩
  simp only [deleteFile, Option.bind_eq_bind, Option.bind_eq_some_iff, Table.find_eq_some]
  constructor
  · rintro ⟨row, ⟨hrow, hid⟩, store, hstore, heq⟩
    rw [hdelete row hrow, Option.some.injEq] at hstore
    subst hstore
    exact ⟨row, hrow, hid, (Option.some.inj heq).symm⟩
  · rintro ⟨row, hrow, hid, rfl⟩
    exact ⟨row, ⟨hrow, hid⟩, _, hdelete row hrow, rfl⟩

theorem invariant_delete {s t : Site} {latest : Latest} {fileId : Nat}
    (h : Invariant p (s, latest)) (hdelete : deleteFile s fileId = some t) :
    Invariant p (t, Function.update latest fileId none) := by
  simp only [deleteFile, Option.bind_eq_bind, Option.bind_eq_some_iff] at hdelete
  obtain ⟨_, -, store, -, ht⟩ := hdelete
  obtain rfl := Option.some.inj ht
  have hmem : ∀ other ∈ (s.files.filter fun row => decide (row.id ≠ fileId)).rows,
      other ∈ s.files.rows ∧ other.id ≠ fileId := by
    intro other hother
    simpa using Table.mem_filter.mp hother
  refine ⟨⟨?_, ?_⟩, ?_⟩
  · exact fun other hother => h.sound.located other (hmem other hother).1
  · exact fun one hone two htwo => h.sound.distinct one (hmem one hone).1 two (hmem two htwo).1
  · intro other hother
    dsimp only
    rw [Function.update_of_ne (hmem other hother).2]
    exact h.recorded other (hmem other hother).1

/-- After a deletion the site is intact exactly if the row had its directory to itself. -/
theorem intact_delete_iff {s : Site} {latest : Latest} {row : Row}
    (h : Invariant p (s, latest)) (hintact : p.Intact (s, latest)) (hrow : row ∈ s.files.rows) :
    p.Intact (⟨s.files.filter fun other => other.id ≠ row.id,
        s.store.filter fun file => !isUnder (dirname row.location) file.path⟩,
        Function.update latest row.id none) ↔
      ∀ other ∈ s.files.rows, dirname other.location = dirname row.location →
        other.id = row.id := by
  obtain ⟨directory, name, hlocated⟩ := h.sound.located row hrow
  have hunder : ∀ other ∈ s.files.rows, (isUnder (dirname row.location) other.location = true ↔
      dirname other.location = dirname row.location) := by
    intro other hother
    obtain ⟨_, _, hother⟩ := h.sound.located other hother
    exact isUnder_dirname_iff hlocated hother
  constructor
  · intro hafter other hother hsame
    by_contra hne
    have hkept : other ∈ (s.files.filter fun other => decide (other.id ≠ row.id)).rows :=
      Table.mem_filter.mpr ⟨hother, by simpa using hne⟩
    obtain ⟨hbytes, hhash⟩ := hafter other hkept
    obtain ⟨bytes, hlatest, -⟩ := Option.map_eq_some_iff.mp hhash
    rw [hlatest] at hbytes
    obtain ⟨file, hfile, -⟩ := Option.map_eq_some_iff.mp hbytes
    have hpath : file.path = other.location := Table.key_of_find hfile
    have hgone := (Table.mem_filter.mp (Table.mem_of_find hfile)).2
    rw [hpath, (hunder other hother).mpr hsame] at hgone
    cases hgone
  · intro halone other hother
    obtain ⟨hold, hne⟩ := Table.mem_filter.mp hother
    have hne : other.id ≠ row.id := of_decide_eq_true hne
    have hkeeps : isUnder (dirname row.location) other.location = false := by
      rw [Bool.eq_false_iff]
      exact fun hisUnder => hne (halone other hold ((hunder other hold).mp hisUnder))
    obtain ⟨hbytes, hhash⟩ := hintact other hold
    dsimp only
    rw [Function.update_of_ne hne]
    refine ⟨?_, hhash⟩
    change _ = latest other.id at hbytes
    rw [← hbytes, Table.find_filter]
    cases hfile : s.store.find other.location with
    | none => rfl
    | some file =>
      have hpath : file.path = other.location := Table.key_of_find hfile
      simp [hpath, hkeeps]

/-! ### Runs -/

theorem step_upload_eq_some {q r : Site × Latest} {u : Upload} :
    Run.monitored p.step p.observe q (.upload u) = some r ↔
      ∃ id, p.uploadFile q.1 u = some (id, r.1) ∧
        r.2 = Function.update q.2 id (some u.bytes) := by
  rw [Run.monitored_eq_some]
  simp only [Platform.step, Platform.observe, Option.map_eq_some_iff, Prod.exists]
  constructor
  · rintro ⟨⟨id, t, hupload, rfl⟩, hlatest⟩
    exact ⟨id, hupload, by simpa [hupload] using hlatest⟩
  · rintro ⟨id, hupload, hlatest⟩
    exact ⟨⟨id, r.1, hupload, rfl⟩, by simpa [hupload] using hlatest⟩

theorem invariant_step {q r : Site × Latest} {e : Event} (h : Invariant p q)
    (hstep : Run.monitored p.step p.observe q e = some r) : Invariant p r := by
  cases e with
  | upload u =>
    obtain ⟨id, hupload, hlatest⟩ := step_upload_eq_some.mp hstep
    obtain ⟨row, rfl, hrow⟩ := recorded_uploadFile h.sound hupload
    exact Prod.mk.eta (p := r) ▸ hlatest ▸ invariant_upload h hrow
  | delete fileId =>
    obtain ⟨hdelete, hlatest⟩ := Run.monitored_eq_some.mp hstep
    exact Prod.mk.eta (p := r) ▸ hlatest ▸ invariant_delete h hdelete

theorem intact_step_iff {q : Site × Latest} (e : Event) (h : Invariant p q)
    (hintact : p.Intact q) :
    (∀ r, Run.monitored p.step p.observe q e = some r → p.Intact r) ↔ DeletesAlone q e := by
  cases e with
  | upload u =>
    refine iff_of_true (fun r hstep => ?_) trivial
    obtain ⟨id, hupload, hlatest⟩ := step_upload_eq_some.mp hstep
    obtain ⟨row, rfl, hrow⟩ := recorded_uploadFile h.sound hupload
    exact Prod.mk.eta (p := r) ▸ hlatest ▸ intact_upload hintact hrow
  | delete fileId =>
    constructor
    · rintro hall row hrow rfl
      have hdelete := (deleteFile_eq_some_iff h hintact).mpr ⟨row, hrow, rfl, rfl⟩
      have hafter := hall (_, Function.update q.2 row.id none)
        (Run.monitored_eq_some.mpr ⟨hdelete, rfl⟩)
      exact (intact_delete_iff h hintact hrow).mp hafter
    · rintro halone r hstep
      obtain ⟨hdelete, hlatest⟩ := Run.monitored_eq_some.mp hstep
      obtain ⟨row, hrow, rfl, hr⟩ := (deleteFile_eq_some_iff h hintact).mp hdelete
      have hafter := (intact_delete_iff h hintact hrow).mpr (halone row hrow rfl)
      rw [← hr] at hafter
      exact Prod.mk.eta (p := r) ▸ hlatest ▸ hafter

/-- A platform without a file. -/
def start : Site × Latest := ({}, fun _ => none)

theorem invariant_start (p : Platform) : Invariant p start :=
  ⟨⟨fun _ h => absurd h List.not_mem_nil, fun _ h => absurd h List.not_mem_nil⟩,
    fun _ h => absurd h List.not_mem_nil⟩

/-- All along a run of uploads and deletions the files are intact exactly if every file that is
deleted has its directory to itself. -/
theorem intact_iff (p : Platform) (events : List Event) :
    (∀ t ∈ Run.visited (Run.monitored p.step p.observe) start events, p.Intact t) ↔
      Run.Meets (Run.monitored p.step p.observe) DeletesAlone start events :=
  Run.forall_visited_iff_meets (fun _ _ _ h hstep => invariant_step h hstep)
    (fun _ e h hintact => intact_step_iff e h hintact) events (invariant_start p)
    fun _ h => absurd h List.not_mem_nil

/-- A platform for texts in ASCII. -/
def plainPlatform : Platform where
  nfkd := id
  lower := List.map Char.toLower
  digit c := if c.isDigit then some (c.toNat - 48) else none
  sha1 bytes := toString (bytes.map UInt8.toNat)
  collation := .ignoreCase

def notes (location : List Char) (bytes : List UInt8) : Upload where
  filename := ['n', 'o', 't', 'e', 's', '.', 't', 'x', 't']
  bytes := bytes
  location := some location

/-- Two files are uploaded to one directory; deleting the first removes the second's bytes. -/
theorem deletes_the_neighbour :
    ¬ ∀ t ∈ Run.visited (Run.monitored plainPlatform.step plainPlatform.observe) start
        [.upload (notes ['d', '/', 'a', '.', 'c'] [97]),
          .upload (notes ['d', '/', 'b', '.', 'c'] [98]), .delete 1],
      plainPlatform.Intact t := by
  decide +kernel

end Fctf.StoredFiles
