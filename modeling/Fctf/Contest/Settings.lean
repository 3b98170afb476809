import Fctf.Contest.Window

/-!
The settings. The platform's API checks what it writes into the table `config`; `get_config` and
the services read the same rows, each in its own way.
-/

namespace Fctf.Settings

open CtfTime

/-- A row of the table, which ids put in order. -/
structure Row where
  id : Nat
  key : String
  value : Option String
  deriving DecidableEq, Repr

/-- What both readers are given. -/
def configs (table : List Row) : List Config := table.map fun row => ⟨row.key, row.value⟩

/-! ### `ConfigSchema` -/

def configApiKeys : List String :=
  ["account_visibility", "bracket_view_other", "contestant_registration_enabled",
    "captain_only_start_challenge", "captain_only_submit_challenge", "challenge_visibility",
    "challenge_difficulty_visibility", "score_visibility", "team_creation", "ctf_banner",
    "ctf_description", "ctf_logo", "ctf_name", "ctf_small_icon", "ctf_theme", "ctf_version",
    "default_locale", "domain_whitelist", "end", "freeze", "hidden_categories",
    "html_sanitization", "incorrect_submissions_per_min", "limit_challenges", "mail_password",
    "mail_port", "mail_server", "mail_ssl", "mail_tls", "mail_useauth", "mail_username",
    "mailfrom_addr", "mailgun_api_key", "mailgun_base_url", "name_changes", "next_update_check",
    "num_teams", "num_users", "oauth_api_endpoint", "oauth_authorization_endpoint",
    "oauth_client_id", "oauth_client_secret", "oauth_token_endpoint",
    "password_change_alert_body", "password_change_alert_subject", "password_reset_body",
    "password_reset_subject", "paused", "prevent_name_change", "privacy_text", "privacy_url",
    "registration_visibility", "setup", "social_share_solve_template", "start",
    "successful_registration_email_body", "successful_registration_email_subject",
    "team_disbanding", "team_size", "theme_footer", "theme_header", "theme_settings", "tos_text",
    "tos_url", "user_creation_email_body", "user_creation_email_subject", "user_mode",
    "verification_email_body", "verification_email_subject", "verify_emails", "version_latest",
    "view_after_ctf", "robots_txt", "kypo_base_url", "kypo_username", "kypo_password",
    "kypo_client_id", "kypo_keycloak_url", "kypo_realm", "kypo_admin_username",
    "kypo_admin_password", "kypo_verify_ssl"]

def integerConfigs : List String :=
  ["team_size", "num_teams", "num_users", "incorrect_submissions_per_min", "limit_challenges",
    "mail_port", "start", "end", "freeze"]

def configFormMetadata : List String :=
  ["nonce", "submit", "start_timezone", "end_timezone", "freeze_timezone"]

def booleanConfigs : List String :=
  ["bracket_view_other", "contestant_registration_enabled", "captain_only_start_challenge",
    "captain_only_submit_challenge", "team_creation", "name_changes", "html_sanitization",
    "mail_ssl", "mail_tls", "mail_useauth", "paused", "prevent_name_change", "setup",
    "verify_emails", "view_after_ctf", "kypo_verify_ssl"]

def enumConfigs : List (String × List String) :=
  [("account_visibility", ["public", "private", "admins"]),
    ("challenge_visibility", ["public", "private", "admins"]),
    ("score_visibility", ["public", "private", "hidden"]),
    ("registration_visibility", ["public", "private", "mlc"]),
    ("challenge_difficulty_visibility", ["enabled", "disabled"]),
    ("user_mode", ["users", "teams"]),
    ("team_disbanding", ["inactive_only", "disabled"])]

def protectedConfigKeys : List String :=
  ["user_mode", "registration_code", "oauth_client_id", "oauth_client_secret"]

/-- A value of a JSON body. -/
inductive Value
  | null
  | bool (b : Bool)
  | int (n : Int)
  /-- By its text in the database. -/
  | float (text : String)
  | str (s : String)
  /-- A list or a dict. -/
  | compound
  deriving DecidableEq, Repr

def Value.isStr : Value → Bool
  | .str _ => true
  | _ => false

/-- What the column of type text holds. -/
def Value.text : Value → Option String
  | .null | .compound => none
  | .bool b => some (if b then "1" else "0")
  | .int n => some (toString n)
  | .float text => some text
  | .str s => some s

structure Platform where
  /-- `app.config["CONFIG_API_KEYS"]`. -/
  extraKeys : List String := []
  themes : List String
  /-- `json.loads` gives a dict. -/
  isObject : String → Bool

structure ValidationError where
  field : String
  message : String
  deriving DecidableEq, Repr

/-- The text for one of the values that stand for a truth value. -/
def booleanText : Value → Option String
  | .bool b => some (if b then "true" else "false")
  | .int n => if n = 1 then some "true" else if n = 0 then some "false" else none
  | .str s =>
    if s ∈ ["1", "true", "on"] then some "true"
    else if s ∈ ["0", "false"] then some "false" else none
  | _ => none

/-- The number that a value is or that its text says. Digits are those of ASCII. -/
def nonnegative : Value → Option Int
  | .int n => if 0 ≤ n ∧ n ≤ 2147483647 then some n else none
  | .str s =>
    if s.toList.length ≤ 10 then
      ((decimal s.toList).filter fun n => n ≤ 2147483647).map Int.ofNat
    else none
  | _ => none

section Schema

variable (platform : Platform)

def isKey (key : String) : Bool := key ∈ configApiKeys || key ∈ platform.extraKeys

/-- `validate_input`, of a key that is known; a value that is missing is `null`. -/
def validateInput (key : String) (value : Value) : Except ValidationError Value :=
  if key = "ctf_theme" ∧ value ≠ .null ∧ value ∉ platform.themes.map Value.str then
    .error ⟨"value", "Unknown theme"⟩
  else if (enumConfigs.lookup key).any fun options => value ∉ options.map Value.str then
    .error ⟨"value", "Invalid config option"⟩
  else if key ∈ booleanConfigs ∧ value ≠ .null then
    match booleanText value with
    | some text => .ok (.str text)
    | none => .error ⟨"value", "Must be a boolean"⟩
  else if key ∈ configApiKeys ∧ key ∉ integerConfigs ∧ key ∉ booleanConfigs ∧
      enumConfigs.lookup key = none ∧ value ≠ .null ∧ !value.isStr then
    .error ⟨"value", "Must be a string or null"⟩
  else if key ∈ integerConfigs ∧ value ≠ .null ∧ value ≠ .str "" then
    match nonnegative value with
    | none => .error ⟨"value", "Must be a nonnegative integer"⟩
    | some n =>
      if key = "mail_port" ∧ ¬ (1 ≤ n ∧ n ≤ 65535) then
        .error ⟨"value", "Mail port must be between 1 and 65535"⟩
      else .ok value
  else if key = "theme_settings" ∧ value ≠ .null ∧ !(value.text.any platform.isObject) then
    .error ⟨"value", "Theme settings must be a JSON string"⟩
  else .ok value

/-- `ConfigValueField`. -/
def deserialize : Value → Except ValidationError Value
  | .compound => .error ⟨"value", "Config value must be a scalar or null"⟩
  | .str s =>
    if s.utf8ByteSize > 65535 then .error ⟨"value", "Config value is too long"⟩ else .ok (.str s)
  | value => .ok value

/-- What a body says of the key and the value. -/
structure Data where
  key : Option Value
  value : Option Value
  deriving DecidableEq, Repr

/-- `ConfigSchema.load`. -/
def load (data : Data) : Except ValidationError (String × Value) :=
  match data.key with
  | some (.str key) =>
    if isKey platform key then
      match validateInput platform key (data.value.getD .null) with
      | .error e => .error e
      | .ok value =>
        if data.value.isNone then .error ⟨"value", "Missing data for required field."⟩
        else (deserialize value).map fun value => (key, value)
    else .error ⟨"key", "Unknown config key"⟩
  | _ => .error ⟨"key", "Unknown config key"⟩

end Schema

/-! ### The writers -/

inductive Effect
  | update (id : Nat) (value : Option String)
  | insert (key : String) (value : Option String)
  | delete (id : Nat)
  deriving DecidableEq, Repr

/-- The answer of a handler; `saved` with what it does to the rows. -/
inductive Response
  | notFound
  /-- A body whose key cannot be hashed. -/
  | typeError
  | invalid (e : ValidationError)
  | saved (effects : List Effect)
  deriving DecidableEq, Repr

def first (table : List Row) (key : String) : Option Row := table.find? fun row => row.key = key

/-- The first row with the key gets the value, or there is another row. -/
def put (table : List Row) (key : String) (value : Value) : Effect :=
  match first table key with
  | some row => .update row.id value.text
  | none => .insert key value.text

section Handlers

variable (platform : Platform) (table : List Row)

def post (data : Data) : Response :=
  if data.key = some .compound then .typeError
  else if data.key ∈ protectedConfigKeys.map fun key => some (.str key) then .notFound
  else match load platform data with
    | .error e => .invalid e
    | .ok (key, value) => .saved [.insert key value.text]

/-- The loop that checks the whole batch. -/
def loadAll : List (String × Value) → Except ValidationError (List (String × Value))
  | [] => .ok []
  | (key, value) :: rest =>
    match load platform ⟨some (.str key), some value⟩ with
    | .error e => .error e
    | .ok loaded => (loadAll rest).map (loaded :: ·)

/-- `ConfigList.patch`. -/
def patchAll (body : List (String × Value)) : Response :=
  let body := body.filter fun entry => entry.1 ∉ configFormMetadata
  if body.any fun entry => entry.1 ∈ protectedConfigKeys then .notFound
  else match loadAll platform body with
    | .error e => .invalid e
    | .ok entries => .saved (entries.map fun entry => put table entry.1 entry.2)

/-- `Config.patch`. -/
def patch (configKey : String) (data : Data) : Response :=
  if configKey ∈ protectedConfigKeys then .notFound
  else if data.value.isNone ∨ data.key.any (· ≠ .str configKey) then
    .invalid ⟨"value", "Provide a value for this config key"⟩
  else match load platform ⟨some (.str configKey), data.value⟩ with
    | .error e => .invalid e
    | .ok (key, value) => .saved [put table key value]

def delete (configKey : String) : Response :=
  if configKey ∈ protectedConfigKeys then .notFound
  else match first table configKey with
    | some row => .saved [.delete row.id]
    | none => .notFound

end Handlers

inductive Call
  | post (data : Data)
  | patchAll (body : List (String × Value))
  | patch (configKey : String) (data : Data)
  | delete (configKey : String)
  | setConfig (key : String) (value : Value)
  deriving DecidableEq, Repr

/-- What a call does, by the rows that it has read. -/
def Call.response (platform : Platform) (table : List Row) : Call → Response
  | .post data => Settings.post platform data
  | .patchAll body => Settings.patchAll platform table body
  | .patch configKey data => Settings.patch platform table configKey data
  | .delete configKey => Settings.delete table configKey
  | .setConfig key value => .saved [put table key value]

/-- `set_config` deletes what is kept of its key; the handlers call `clear_config`. -/
def Call.about : Call → Option String
  | .setConfig key _ => some key
  | _ => none

/-- The table with the id of the next row. A row that is gone can neither be changed nor deleted. -/
def Effect.apply (p : List Row × Nat) : Effect → Option (List Row × Nat)
  | .update id value =>
    if p.1.any (·.id = id) then
      some (p.1.map fun row => if row.id = id then { row with value := value } else row, p.2)
    else none
  | .insert key value => some (p.1 ++ [⟨p.2, key, value⟩], p.2 + 1)
  | .delete id =>
    if p.1.any (·.id = id) then some (p.1.filter (·.id ≠ id), p.2) else none

def applyAll (p : List Row × Nat) (effects : List Effect) : Option (List Row × Nat) :=
  effects.foldlM Effect.apply p

/-! ### One setting for both readers -/

/-- What a text says to a program in either language. -/
inductive Setting
  | unset
  | int (n : ℕ)
  | bool (b : Bool)
  | text (s : String)

def Setting.py : Setting → Option PyValue
  | .unset => none
  | .int n => some (.int n)
  | .bool b => some (.bool b)
  | .text s => some (.str s)

def Setting.cs : Setting → ConfigValue
  | .unset => .keyNotFoundException
  | .int n => .int n
  | .bool b => .bool b
  | .text s => .text s

/-- A setting that a key of its kind may have. -/
def Setting.Fits (key : String) : Setting → Prop
  | .unset => True
  | .int n => key ∈ integerConfigs ∧ n ≤ 2147483647 ∨ key ∈ booleanConfigs ∧ n ≤ 1
  | .bool _ => key ∈ booleanConfigs
  | .text s => ∃ options, enumConfigs.lookup key = some options ∧ s ∈ options

/-- A key whose values are checked for a kind. -/
def IsKinded (key : String) : Prop :=
  key ∈ integerConfigs ∨ key ∈ booleanConfigs ∨ (enumConfigs.lookup key).isSome

/-- A text that says a value of the key's kind. -/
structure Proper (key text : String) : Prop where
  integer : key ∈ integerConfigs → ∃ n ≤ 2147483647, decimal text.toList = some n
  boolean : key ∈ booleanConfigs → text ∈ ["true", "false", "0", "1"]
  enum : ∀ options, enumConfigs.lookup key = some options → text ∈ options

/-- Nothing, or a text that is proper. -/
def ProperValue (key : String) (value : Option String) : Prop :=
  ∀ text ∈ value, text ≠ "" → Proper key text

theorem isDigit_of_decimal {text : List Char} {n : ℕ} (h : decimal text = some n) :
    ∀ c ∈ text, c.isDigit = true := by
  rw [decimal] at h
  split_ifs at h with hdigits
  exact List.all_eq_true.mp hdigits.2

theorem signedDecimal_of_decimal {text : List Char} {n : ℕ} (h : decimal text = some n) :
    signedDecimal text = some (n : Int) := by
  have hdigits := isDigit_of_decimal h
  unfold signedDecimal
  split
  · cases hdigits '-' List.mem_cons_self
  · cases hdigits '+' List.mem_cons_self
  · rw [h]
    rfl

theorem tryParseInt_of_decimal {text : String} {n : ℕ} (h : decimal text.toList = some n)
    (hn : n ≤ 2147483647) : tryParseInt text = some (n : Int) := by
  have htrim : trimWhile isNumberSpace text.toList = text.toList := by
    apply trimWhile_eq_self
    intro c hc
    exact IsNumeral.isNumberSpace (.inr (isDigit_of_decimal h c hc))
  rw [tryParseInt, tryParse, htrim, signedDecimal_of_decimal h, Option.filter_some, if_pos]
  simp only [Bool.and_eq_true, decide_eq_true_eq]
  omega

section Reading

variable {configs : List Config} {key text : String}

theorem read_integer {n : ℕ} (hlookup : lookup configs key = some text)
    (h : decimal text.toList = some n) (hn : n ≤ 2147483647) :
    pyGetConfig configs key = some (.int n) ∧ getConfig configs key = .int n := by
  constructor
  · rw [pyGetConfig, hlookup, Option.map_some, h]
  · simp only [getConfig, hlookup, tryParseInt_of_decimal h hn]

theorem read_boolean (hlookup : lookup configs key = some text)
    (h : text ∈ ["true", "false", "0", "1"]) :
    (∃ b, pyGetConfig configs key = some (.bool b) ∧ getConfig configs key = .bool b) ∨
      ∃ n ≤ 1, pyGetConfig configs key = some (.int n) ∧ getConfig configs key = .int n := by
  simp only [List.mem_cons, List.not_mem_nil, or_false] at h
  rcases h with rfl | rfl | rfl | rfl
  · refine .inl ⟨true, ?_, ?_⟩
    · rw [pyGetConfig, hlookup]
      rfl
    · simp only [getConfig, hlookup, show tryParseInt "true" = none by decide +kernel,
        show tryParseBool "true" = some true by decide +kernel]
  · refine .inl ⟨false, ?_, ?_⟩
    · rw [pyGetConfig, hlookup]
      rfl
    · simp only [getConfig, hlookup, show tryParseInt "false" = none by decide +kernel,
        show tryParseBool "false" = some false by decide +kernel]
  · exact .inr ⟨0, by decide, read_integer hlookup (by decide +kernel) (by decide)⟩
  · exact .inr ⟨1, by decide, read_integer hlookup (by decide +kernel) (by decide)⟩

/-- No option of an enumeration looks like a number or a truth value. -/
theorem plain_option : ∀ entry ∈ enumConfigs, ∀ text ∈ entry.2, decimal text.toList = none ∧
    text.toList.map Char.toLower ≠ ['t', 'r', 'u', 'e'] ∧
      text.toList.map Char.toLower ≠ ['f', 'a', 'l', 's', 'e'] ∧
        tryParseInt text = none ∧ tryParseBool text = none := by
  decide +kernel

theorem read_enum {options : List String} (hlookup : lookup configs key = some text)
    (hmem : (key, options) ∈ enumConfigs) (h : text ∈ options) :
    pyGetConfig configs key = some (.str text) ∧ getConfig configs key = .text text := by
  obtain ⟨hdecimal, htrue, hfalse, hint, hbool⟩ := plain_option _ hmem text h
  constructor
  · simp only [pyGetConfig, hlookup, Option.map_some, hdecimal, htrue, hfalse, if_false]
  · simp only [getConfig, hlookup, hint, hbool]

theorem mem_of_lookup {options : List String} (h : enumConfigs.lookup key = some options) :
    (key, options) ∈ enumConfigs := by
  obtain ⟨before, after, hsplit, _⟩ := List.lookup_eq_some_iff.mp h
  rw [hsplit]
  exact List.mem_append_right before List.mem_cons_self

/-- A proper text is one setting to both. -/
theorem read_proper (hkey : IsKinded key) (hlookup : ∀ text, lookup configs key = some text →
    Proper key text) : ∃ v : Setting, v.Fits key ∧ pyGetConfig configs key = v.py ∧
      getConfig configs key = v.cs := by
  cases htext : lookup configs key with
  | none =>
    refine ⟨.unset, trivial, ?_, ?_⟩
    · rw [pyGetConfig, htext]
      rfl
    · rw [getConfig, htext]
      rfl
  | some text =>
    have hproper := hlookup text htext
    rcases hkey with hinteger | hboolean | henum
    · obtain ⟨n, hn, hdecimal⟩ := hproper.integer hinteger
      exact ⟨.int n, .inl ⟨hinteger, hn⟩, read_integer htext hdecimal hn⟩
    · rcases read_boolean htext (hproper.boolean hboolean) with ⟨b, hb⟩ | ⟨n, hn, hread⟩
      · exact ⟨.bool b, hboolean, hb⟩
      · exact ⟨.int n, .inr ⟨hboolean, hn⟩, hread⟩
    · obtain ⟨options, hoptions⟩ := Option.isSome_iff_exists.mp henum
      exact ⟨.text text, ⟨options, hoptions, hproper.enum options hoptions⟩,
        read_enum htext (mem_of_lookup hoptions) (hproper.enum options hoptions)⟩

end Reading

/-! ### What the API writes -/

section Writing

variable {platform : Platform} {key : String} {value value' : Value}

theorem deserialize_eq_ok (h : deserialize value = .ok value') : value' = value := by
  cases value with
  | compound => cases h
  | str s =>
    simp only [deserialize] at h
    split_ifs at h
    exact (Except.ok.inj h).symm
  | null | bool b | int n | float text => exact (Except.ok.inj h).symm

/-- What an accepted value has passed, and what becomes of it. -/
theorem validateInput_eq_ok (h : validateInput platform key value = .ok value') :
    (∀ options, enumConfigs.lookup key = some options → value ∈ options.map Value.str) ∧
      (key ∈ booleanConfigs ∧ (∃ text, booleanText value = some text ∧ value' = .str text) ∨
        (key ∈ booleanConfigs → value = .null) ∧ value' = value ∧ (key ∈ integerConfigs →
          value = .null ∨ value = .str "" ∨ ∃ n, nonnegative value = some n)) := by
  unfold validateInput at h
  split_ifs at h with _ henum hboolean _ hinteger htheme
  all_goals
    have hoptions : ∀ options, enumConfigs.lookup key = some options →
        value ∈ options.map Value.str := by
      intro options hsome
      rw [hsome] at henum
      simpa using henum
    refine ⟨hoptions, ?_⟩
  · split at h
    · rename_i text htext
      exact .inl ⟨hboolean.1, text, htext, (Except.ok.inj h).symm⟩
    · cases h
  · split at h
    · cases h
    · rename_i n hn
      split_ifs at h
      exact .inr ⟨fun hkey => by_contra fun hne => hboolean ⟨hkey, hne⟩,
        (Except.ok.inj h).symm, fun _ => .inr (.inr ⟨n, hn⟩)⟩
  · refine .inr ⟨fun hkey => by_contra fun hne => hboolean ⟨hkey, hne⟩,
      (Except.ok.inj h).symm, fun hkey => ?_⟩
    by_contra hset
    rw [not_or, not_or] at hset
    exact hinteger ⟨hkey, hset.1, hset.2.1⟩

theorem kinds_disjoint : (∀ key ∈ integerConfigs, key ∉ booleanConfigs) ∧
    ∀ key ∈ booleanConfigs, enumConfigs.lookup key = none := by
  decide +kernel

theorem booleanText_mem {text : String} (h : booleanText value = some text) :
    text ∈ ["true", "false", "0", "1"] := by
  cases value with
  | bool b => cases b <;> cases h <;> decide
  | int n =>
    simp only [booleanText] at h
    split_ifs at h <;> cases h <;> decide
  | str s =>
    simp only [booleanText] at h
    split_ifs at h <;> cases h <;> decide
  | null | float text | compound => cases h

/-- What is stored for a number is read as that number. -/
theorem decimal_nonnegative {n : Int} {text : String} (h : nonnegative value = some n)
    (htext : text ∈ value.text) : ∃ m ≤ 2147483647, decimal text.toList = some m := by
  cases value with
  | int k =>
    simp only [nonnegative] at h
    split_ifs at h with hrange
    cases htext
    obtain ⟨m, rfl⟩ := Int.eq_ofNat_of_zero_le hrange.1
    exact ⟨m, by omega, decimal_repr m⟩
  | str s =>
    simp only [nonnegative] at h
    split_ifs at h
    cases htext
    obtain ⟨m, hm, _⟩ := Option.map_eq_some_iff.mp h
    obtain ⟨hdecimal, hle⟩ := Option.filter_eq_some_iff.mp hm
    exact ⟨m, of_decide_eq_true hle, hdecimal⟩
  | null | bool b | float text | compound => cases h

/-- A value that has been accepted is stored as a proper text, or as none. -/
theorem properValue_validateInput (h : validateInput platform key value = .ok value') :
    ProperValue key value'.text := by
  obtain ⟨henum, hcases⟩ := validateInput_eq_ok h
  intro text htext hne
  rcases hcases with ⟨hkey, stored, hstored, rfl⟩ | ⟨hboolean, rfl, hinteger⟩
  · obtain rfl := Option.some.inj htext
    refine ⟨fun hint => absurd hkey (kinds_disjoint.1 key hint),
      fun _ => booleanText_mem hstored, fun options hoptions => ?_⟩
    cases (kinds_disjoint.2 key hkey).symm.trans hoptions
  · refine ⟨fun hkey => ?_, fun hkey => ?_, fun options hoptions => ?_⟩
    · rcases hinteger hkey with rfl | rfl | ⟨n, hn⟩
      · cases htext
      · exact absurd (Option.some.inj htext).symm hne
      · exact decimal_nonnegative hn htext
    · rw [hboolean hkey] at htext
      cases htext
    · obtain ⟨option, hmem, rfl⟩ := List.mem_map.mp (henum options hoptions)
      obtain rfl := Option.some.inj htext
      exact hmem

theorem properValue_load {data : Data} (h : load platform data = .ok (key, value)) :
    ProperValue key value.text ∧ ∀ key', data.key = some (.str key') → key' = key := by
  unfold load at h
  split at h
  · rename_i key' hkey
    split_ifs at h
    · split at h <;> cases h
    · split at h
      · cases h
      · rename_i checked hchecked
        cases hstored : deserialize checked with
        | error e =>
          rw [hstored] at h
          cases h
        | ok stored =>
          rw [hstored] at h
          cases h
          obtain rfl := deserialize_eq_ok hstored
          refine ⟨properValue_validateInput hchecked, ?_⟩
          intro key'' hkey''
          exact Value.str.inj (Option.some.inj (hkey''.symm.trans hkey))
  · cases h

theorem properValue_loadAll {body entries : List (String × Value)}
    (h : loadAll platform body = .ok entries) :
    ∀ entry ∈ entries, ProperValue entry.1 entry.2.text := by
  induction body generalizing entries with
  | nil =>
    cases h
    exact List.forall_mem_nil _
  | cons first rest ih =>
    obtain ⟨key, value⟩ := first
    rw [loadAll] at h
    split at h
    · cases h
    · rename_i loaded hloaded
      cases hrest : loadAll platform rest with
      | error e =>
        rw [hrest] at h
        cases h
      | ok others =>
        rw [hrest] at h
        cases h
        intro entry hentry
        rcases List.mem_cons.mp hentry with rfl | hentry
        · exact (properValue_load hloaded).1
        · exact ih hrest entry hentry

end Writing

/-! ### Tables -/

/-- The rows have the keys that their ids stand for, and proper values. -/
structure Clean (keyOf : ℕ → String) (p : List Row × Nat) : Prop where
  old : ∀ row ∈ p.1, row.id < p.2
  key : ∀ row ∈ p.1, row.key = keyOf row.id
  value : ∀ row ∈ p.1, ProperValue row.key row.value

/-- An effect on a row there has been gives it a proper value. -/
def Effect.Proper (keyOf : ℕ → String) (nextId : Nat) : Effect → Prop
  | .update id value => id < nextId ∧ ProperValue (keyOf id) value
  | .insert key value => ProperValue key value
  | .delete _ => True

section Tables

variable {keyOf : ℕ → String} {platform : Platform} {p q : List Row × Nat} {table : List Row}

theorem Clean.put (h : Clean keyOf p) {key : String} {value : Value}
    (hvalue : ProperValue key value.text) : (put p.1 key value).Proper keyOf p.2 := by
  unfold Settings.put
  cases hfirst : first p.1 key with
  | none => exact hvalue
  | some row =>
    have hmem : row ∈ p.1 := List.mem_of_find?_eq_some hfirst
    have hfound := List.find?_some hfirst
    have hkey : row.key = key := of_decide_eq_true hfound
    exact ⟨h.old row hmem, (h.key row hmem).symm.trans hkey ▸ hvalue⟩

/-- A call makes proper effects out of a clean table. -/
theorem Clean.response (h : Clean keyOf p) {call : Call} {effects : List Effect}
    (hcall : ∀ key value, call = .setConfig key value → ProperValue key value.text)
    (hresponse : call.response platform p.1 = .saved effects) :
    ∀ e ∈ effects, e.Proper keyOf p.2 := by
  cases call with
  | post data =>
    simp only [Call.response, post] at hresponse
    split_ifs at hresponse
    split at hresponse
    · cases hresponse
    · rename_i hload
      cases hresponse
      exact List.forall_mem_singleton.mpr (properValue_load hload).1
  | patchAll body =>
    simp only [Call.response, patchAll] at hresponse
    split_ifs at hresponse
    split at hresponse
    · cases hresponse
    · rename_i entries hload
      cases hresponse
      intro e he
      obtain ⟨entry, hentry, rfl⟩ := List.mem_map.mp he
      exact h.put (properValue_loadAll hload entry hentry)
  | patch configKey data =>
    simp only [Call.response, patch] at hresponse
    split_ifs at hresponse
    split at hresponse
    · cases hresponse
    · rename_i hload
      cases hresponse
      exact List.forall_mem_singleton.mpr (h.put (properValue_load hload).1)
  | delete configKey =>
    simp only [Call.response, delete] at hresponse
    split_ifs at hresponse
    split at hresponse
    · cases hresponse
      exact List.forall_mem_singleton.mpr trivial
    · cases hresponse
  | setConfig key value =>
    cases hresponse
    exact List.forall_mem_singleton.mpr (h.put (hcall key value rfl))

theorem Clean.apply (h : Clean keyOf p) {e : Effect} (he : e.Proper keyOf p.2)
    (happly : e.apply p = some q) :
    p.2 ≤ q.2 ∧ ∃ keyOf', (∀ id < p.2, keyOf' id = keyOf id) ∧ Clean keyOf' q := by
  cases e with
  | update id value =>
    simp only [Effect.apply] at happly
    split_ifs at happly
    cases happly
    refine ⟨Nat.le_refl _, keyOf, fun _ _ => rfl, ?_⟩
    refine ⟨?_, ?_, ?_⟩
    all_goals
      intro row hrow
      obtain ⟨old, hold, rfl⟩ := List.mem_map.mp hrow
      split_ifs with hid
    · exact h.old old hold
    · exact h.old old hold
    · exact h.key old hold
    · exact h.key old hold
    · have hkey : old.key = keyOf id := (h.key old hold).trans (by rw [hid])
      exact hkey ▸ he.2
    · exact h.value old hold
  | insert key value =>
    cases happly
    refine ⟨Nat.le_succ _, Function.update keyOf p.2 key,
      fun id hid => Function.update_of_ne (Nat.ne_of_lt hid) .., ?_⟩
    refine ⟨?_, ?_, ?_⟩
    all_goals
      intro row hrow
      rcases List.mem_append.mp hrow with hold | hnew
    · exact Nat.lt_succ_of_lt (h.old row hold)
    · obtain rfl := List.mem_singleton.mp hnew
      exact Nat.lt_succ_self _
    · rw [h.key row hold, Function.update_of_ne (Nat.ne_of_lt (h.old row hold))]
    · obtain rfl := List.mem_singleton.mp hnew
      exact (Function.update_self p.2 key keyOf).symm
    · exact h.value row hold
    · obtain rfl := List.mem_singleton.mp hnew
      exact he
  | delete id =>
    simp only [Effect.apply] at happly
    split_ifs at happly
    cases happly
    refine ⟨Nat.le_refl _, keyOf, fun _ _ => rfl, ?_⟩
    exact ⟨fun row hrow => h.old row (List.mem_of_mem_filter hrow),
      fun row hrow => h.key row (List.mem_of_mem_filter hrow),
      fun row hrow => h.value row (List.mem_of_mem_filter hrow)⟩

theorem Effect.Proper.mono {keyOf' : ℕ → String} {n m : Nat} {e : Effect}
    (h : e.Proper keyOf n) (hkey : ∀ id < n, keyOf' id = keyOf id) (hle : n ≤ m) :
    e.Proper keyOf' m := by
  cases e with
  | update id value => exact ⟨Nat.lt_of_lt_of_le h.1 hle, (hkey id h.1).symm ▸ h.2⟩
  | insert key value => exact h
  | delete id => trivial

theorem Clean.mono {keyOf' : ℕ → String} {n m : Nat} (h : Clean keyOf (table, n))
    (hkey : ∀ id < n, keyOf' id = keyOf id) (hle : n ≤ m) : Clean keyOf' (table, m) where
  old := fun row hrow => Nat.lt_of_lt_of_le (h.old row hrow) hle
  key := fun row hrow => (h.key row hrow).trans (hkey _ (h.old row hrow)).symm
  value := h.value

theorem Clean.applyAll (h : Clean keyOf p) {effects : List Effect}
    (he : ∀ e ∈ effects, e.Proper keyOf p.2) (happly : applyAll p effects = some q) :
    p.2 ≤ q.2 ∧ ∃ keyOf', (∀ id < p.2, keyOf' id = keyOf id) ∧ Clean keyOf' q := by
  induction effects generalizing p keyOf with
  | nil =>
    cases happly
    exact ⟨Nat.le_refl _, keyOf, fun _ _ => rfl, h⟩
  | cons e rest ih =>
    obtain ⟨mid, hmid, hrest⟩ := Option.bind_eq_some_iff.mp happly
    obtain ⟨hle, keyOf₁, hkey₁, hclean⟩ := h.apply (he e List.mem_cons_self) hmid
    have hproper : ∀ e ∈ rest, e.Proper keyOf₁ mid.2 := fun e hmem =>
      (he e (List.mem_cons_of_mem _ hmem)).mono hkey₁ hle
    obtain ⟨hle', keyOf₂, hkey₂, hclean'⟩ := ih hclean hproper hrest
    refine ⟨Nat.le_trans hle hle', keyOf₂, ?_, hclean'⟩
    intro id hid
    rw [hkey₂ id (Nat.lt_of_lt_of_le hid hle), hkey₁ id hid]

theorem proper_of_lookup (h : Clean keyOf p) {key text : String}
    (hlookup : lookup (configs p.1) key = some text) : Proper key text := by
  obtain ⟨hbind, hne⟩ := Option.filter_eq_some_iff.mp hlookup
  obtain ⟨config, hfind, hvalue⟩ := Option.bind_eq_some_iff.mp hbind
  have hfound := List.find?_some hfind
  obtain ⟨row, hrow, rfl⟩ := List.mem_map.mp (List.mem_of_find?_eq_some hfind)
  obtain rfl : row.key = key := of_decide_eq_true hfound
  exact h.value row hrow text hvalue (of_decide_eq_true hne)

end Tables

end Fctf.Settings
