import Mathlib.Data.List.Basic

/-!
Queries that a program puts together: their syntax, the text they have, the places for values in
it, and which names, aggregates and values a query may have where.
-/

namespace Sql

/-- A column, with the name of the table that it is looked up in. -/
structure Column where
  source : Option String := none
  name : String
  deriving DecidableEq

/-- An expression. Operators, functions and constants are as they are spelled. -/
inductive Expr
  | column (c : Column)
  | bound (name : String)
  | constant (spelling : String)
  | call (opening : String) (argument : Expr)
  | coalesce (first second : Expr)
  | count
  | aggregate (function : String) (distinct : Bool) (argument : Expr)
  | binary (operator : String) (left right : Expr)
  | isNull (negated : Bool) (argument : Expr)
  | isIn (argument : Expr) (names : List String)
  | isInBound (argument : Expr) (name : String)
  | case (branches : Expr)
  | whenThen (condition value rest : Expr)
  | elseThen (value : Expr)
  | noElse
  /-- `(SELECT value FROM table label WHERE condition)` -/
  | lookUp (value : Expr) (table label : String) (condition : Expr)
  | rank (partition : List Column) (order : List (Column × String))

/-- A table under the name that the query gives it. -/
structure Source where
  table : String
  label : String := table

structure Join where
  outer : Bool
  source : Source
  on : List Expr

inductive Item
  | star (source : Option String)
  | expr (e : Expr) (label : Option String)

/-- `SELECT`; conditions are joined by `AND`. -/
structure Select where
  items : List Item
  source : Source
  joins : List Join := []
  conditions : List Expr := []
  groupBy : List Column := []
  having : List Expr := []
  orderBy : List (Column × String) := []
  limit : Option String := none

/-- `WITH` and what is selected from it. -/
structure Query where
  tables : List (String × Select)
  body : Select

/-! ### The text -/

inductive Token
  | word (spelling : String)
  | placeholder (name : String)

namespace Token

def text : Token → String
  | word spelling => spelling
  | placeholder name => ":" ++ name

def name? : Token → Option String
  | word _ => none
  | placeholder name => some name

end Token

def separated (separator : String) : List (List Token) → List Token
  | [] => []
  | [tokens] => tokens
  | tokens :: rest => tokens ++ .word separator :: separated separator rest

def Column.spelling (c : Column) : String :=
  match c.source with
  | some source => source ++ "." ++ c.name
  | none => c.name

def orderParts (order : List (Column × String)) : List (List Token) :=
  order.map fun o => [.word o.1.spelling, .word o.2]

def Expr.tokens : Expr → List Token
  | column c => [.word c.spelling]
  | bound name => [.placeholder name]
  | constant spelling => [.word spelling]
  | call opening argument => .word opening :: argument.tokens ++ [.word ")"]
  | coalesce first second =>
    .word "COALESCE(" :: first.tokens ++ .word "," :: second.tokens ++ [.word ")"]
  | count => [.word "COUNT(*)"]
  | aggregate function distinct argument =>
    .word (function ++ if distinct then "(DISTINCT" else "(") :: argument.tokens ++ [.word ")"]
  | binary operator left right => left.tokens ++ .word operator :: right.tokens
  | isNull negated argument =>
    argument.tokens ++ [.word (if negated then "IS NOT NULL" else "IS NULL")]
  | isIn argument names =>
    argument.tokens ++ .word "IN (" ::
      separated "," (names.map fun name => [.placeholder name]) ++ [.word ")"]
  | isInBound argument name => argument.tokens ++ [.word "IN", .placeholder name]
  | case branches => .word "CASE" :: branches.tokens ++ [.word "END"]
  | whenThen condition value rest =>
    .word "WHEN" :: condition.tokens ++ .word "THEN" :: value.tokens ++ rest.tokens
  | elseThen value => .word "ELSE" :: value.tokens
  | noElse => []
  | lookUp value table label condition =>
    .word "( SELECT" :: value.tokens ++ [.word "FROM", .word table, .word label, .word "WHERE"] ++
      condition.tokens ++ [.word ")"]
  | rank partition order =>
    .word "RANK() OVER (" ::
      (if partition.isEmpty then [] else
        .word "PARTITION BY" :: separated "," (partition.map fun c => [.word c.spelling])) ++
      .word "ORDER BY" :: separated "," (orderParts order) ++ [.word ")"]

/-- A clause, which is left out where there is nothing in it. -/
def clause (keyword separator : String) (parts : List (List Token)) : List Token :=
  if parts.isEmpty then [] else .word keyword :: separated separator parts

def Source.tokens (s : Source) : List Token :=
  .word s.table :: if s.label = s.table then [] else [.word s.label]

def Join.tokens (j : Join) : List Token :=
  .word (if j.outer then "LEFT JOIN" else "JOIN") :: j.source.tokens ++
    clause "ON" "AND" (j.on.map Expr.tokens)

def Item.tokens : Item → List Token
  | star none => [.word "*"]
  | star (some source) => [.word (source ++ ".*")]
  | expr e none => e.tokens
  | expr e (some label) => e.tokens ++ [.word "AS", .word label]

def Select.tokens (s : Select) : List Token :=
  clause "SELECT" "," (s.items.map Item.tokens) ++ .word "FROM" :: s.source.tokens ++
    s.joins.flatMap Join.tokens ++ clause "WHERE" "AND" (s.conditions.map Expr.tokens) ++
    clause "GROUP BY" "," (s.groupBy.map fun c => [.word c.spelling]) ++
    clause "HAVING" "AND" (s.having.map Expr.tokens) ++
    clause "ORDER BY" "," (orderParts s.orderBy) ++
    s.limit.toList.flatMap fun name => [.word "LIMIT", .placeholder name]

def Query.tokens (q : Query) : List Token :=
  clause "WITH" "," (q.tables.map fun t =>
    .word t.1 :: .word "AS (" :: t.2.tokens ++ [.word ")"]) ++ q.body.tokens

def textOf (tokens : List Token) : String := " ".intercalate (tokens.map Token.text)

def Query.text (q : Query) : String := textOf q.tokens

/-- The names that values are bound to. -/
def names (tokens : List Token) : List String := tokens.filterMap Token.name?

/-! ### Placeholders -/

def isWordChar (c : Char) : Bool := c.isAlphanum || c = '_'

/-- The word after each colon. -/
def placeholdersIn : List Char → List (List Char)
  | [] => []
  | c :: cs => if c = ':' then cs.takeWhile isWordChar :: placeholdersIn cs else placeholdersIn cs

/-- The placeholders of a text. -/
def placeholders (text : String) : List String := (placeholdersIn text.toList).map String.ofList

/-- A spelling without a colon, byte by byte. -/
def plainWord (spelling : String) : Bool := spelling.toByteArray.data.toList.all (· ≠ 58)

/-- A name of word characters. -/
def plainName (name : String) : Bool := name.toList.all isWordChar

/-- A token that is read as it is meant. -/
def Token.plain : Token → Bool
  | .word spelling => plainWord spelling
  | .placeholder name => plainName name

theorem ne_colon_of_plainWord {spelling : String} (h : plainWord spelling = true) :
    ∀ c ∈ spelling.toList, c ≠ ':' := by
  rintro c hc rfl
  obtain ⟨before, after, hsplit⟩ := List.append_of_mem hc
  rw [plainWord, ← String.utf8Encode_toList, hsplit, List.utf8Encode_append,
    List.utf8Encode_cons, List.all_eq_true] at h
  have hcolon : (58 : UInt8) ∈ [':'].utf8Encode.data.toList := by decide
  have hbyte := h 58 (by simp [hcolon])
  simp at hbyte

theorem plainWord_append {s t : String} (hs : plainWord s = true) (ht : plainWord t = true) :
    plainWord (s ++ t) = true := by
  rw [plainWord, String.toByteArray_append]
  simp only [ByteArray.data_append, Array.toList_append, List.all_append]
  exact Bool.and_eq_true_iff.mpr ⟨hs, ht⟩

theorem placeholdersIn_append {cs : List Char} (h : ∀ c ∈ cs, c ≠ ':') (rest : List Char) :
    placeholdersIn (cs ++ rest) = placeholdersIn rest := by
  induction cs with
  | nil => rfl
  | cons c cs ih =>
    rw [List.forall_mem_cons] at h
    rw [List.cons_append, placeholdersIn, if_neg h.1]
    exact ih h.2

theorem wordChar_ne {c : Char} (h : isWordChar c = true) : c ≠ ':' := by
  rintro rfl
  revert h
  decide

/-- What is read in the text of a token, before a character that is in no word. -/
theorem placeholdersIn_token {t : Token} (ht : t.plain = true) {rest : List Char}
    (hrest : ∀ c ∈ rest.head?, isWordChar c = false) :
    placeholdersIn (t.text.toList ++ rest) =
      (t.name?.toList.map String.toList) ++ placeholdersIn rest := by
  cases t with
  | word spelling =>
    exact placeholdersIn_append (ne_colon_of_plainWord ht) rest
  | placeholder name =>
    have hword : ∀ c ∈ name.toList, isWordChar c = true := by
      simpa [Token.plain, plainName] using ht
    have htake : (name.toList ++ rest).takeWhile isWordChar = name.toList := by
      rw [List.takeWhile_append_of_pos hword]
      cases rest with
      | nil => simp
      | cons c rest =>
        have hc : isWordChar c = false := hrest c rfl
        simp [hc]
    have htext : (Token.placeholder name).text.toList = ':' :: name.toList := by
      simp [Token.text]
    rw [htext, List.cons_append, placeholdersIn, if_pos rfl, htake,
      placeholdersIn_append fun c hc => wordChar_ne (hword c hc)]
    rfl

theorem textOf_cons (t t' : Token) (tokens : List Token) :
    (textOf (t :: t' :: tokens)).toList =
      t.text.toList ++ ' ' :: (textOf (t' :: tokens)).toList := by
  simp [textOf, String.intercalate_cons_cons]

/-- The placeholders that are read in a text are the ones that were put into it. -/
theorem placeholders_textOf {tokens : List Token} (h : ∀ t ∈ tokens, t.plain = true) :
    placeholders (textOf tokens) = names tokens := by
  have hchars : placeholdersIn (textOf tokens).toList = (names tokens).map String.toList := by
    induction tokens with
    | nil => rfl
    | cons t tokens ih =>
      rw [List.forall_mem_cons] at h
      cases tokens with
      | nil =>
        have ht := @placeholdersIn_token _ h.1 [] (by simp)
        cases t <;> simpa [textOf, names, placeholdersIn, List.filterMap_cons, Token.name?] using ht
      | cons t' tokens =>
        have ht := @placeholdersIn_token _ h.1 (' ' :: (textOf (t' :: tokens)).toList)
          (by simp; decide)
        have hspace : placeholdersIn (' ' :: (textOf (t' :: tokens)).toList) =
            placeholdersIn (textOf (t' :: tokens)).toList := by
          rw [placeholdersIn, if_neg (by decide)]
        rw [textOf_cons, ht, hspace, ih h.2]
        cases t <;> rfl
  rw [placeholders, hchars, List.map_map]
  simp [Function.comp_def]

/-! ### Plain queries -/

theorem names_append (tokens tokens' : List Token) :
    names (tokens ++ tokens') = names tokens ++ names tokens' := List.filterMap_append

@[simp] theorem names_word (spelling : String) (tokens : List Token) :
    names (.word spelling :: tokens) = names tokens := rfl

@[simp] theorem names_placeholder (name : String) (tokens : List Token) :
    names (.placeholder name :: tokens) = name :: names tokens := rfl

@[simp] theorem names_nil : names [] = [] := rfl

theorem names_separated (separator : String) (parts : List (List Token)) :
    names (separated separator parts) = parts.flatMap names := by
  fun_induction separated with
  | case1 => rfl
  | case2 tokens => simp
  | case3 tokens rest hne ih => rw [names_append, names_word, ih, List.flatMap_cons]

theorem names_clause (keyword separator : String) (parts : List (List Token)) :
    names (clause keyword separator parts) = parts.flatMap names := by
  unfold clause
  split
  · rename_i hempty
    rw [List.isEmpty_iff.mp hempty]
    rfl
  · rw [names_word, names_separated]

/-- The tokens of a list are plain. -/
def Plain (tokens : List Token) : Prop := ∀ t ∈ tokens, t.plain = true

@[simp] theorem plain_nil : Plain [] := fun _ h => absurd h List.not_mem_nil

@[simp] theorem plain_word (spelling : String) (tokens : List Token) :
    Plain (.word spelling :: tokens) ↔ plainWord spelling = true ∧ Plain tokens :=
  List.forall_mem_cons

@[simp] theorem plain_placeholder (name : String) (tokens : List Token) :
    Plain (.placeholder name :: tokens) ↔ plainName name = true ∧ Plain tokens :=
  List.forall_mem_cons

@[simp] theorem plain_append (tokens tokens' : List Token) :
    Plain (tokens ++ tokens') ↔ Plain tokens ∧ Plain tokens' := List.forall_mem_append

theorem plain_separated {separator : String} (hseparator : plainWord separator = true)
    {parts : List (List Token)} (h : ∀ part ∈ parts, Plain part) :
    Plain (separated separator parts) := by
  fun_induction separated with
  | case1 => exact plain_nil
  | case2 tokens => exact h tokens List.mem_cons_self
  | case3 tokens rest hne ih =>
    rw [List.forall_mem_cons] at h
    rw [plain_append, plain_word]
    exact ⟨h.1, hseparator, ih h.2⟩

theorem plain_clause {keyword separator : String} (hkeyword : plainWord keyword = true)
    (hseparator : plainWord separator = true) {parts : List (List Token)}
    (h : ∀ part ∈ parts, Plain part) : Plain (clause keyword separator parts) := by
  unfold clause
  split
  · exact plain_nil
  · rw [plain_word]
    exact ⟨hkeyword, plain_separated hseparator h⟩

namespace Column

def plain (c : Column) : Bool := c.source.all plainWord && plainWord c.name

theorem plain_spelling {c : Column} (h : c.plain = true) : plainWord c.spelling = true := by
  obtain ⟨source, name⟩ := c
  cases source with
  | none => simpa [plain, spelling] using h
  | some source =>
    have h : plainWord source = true ∧ plainWord name = true := by simpa [plain] using h
    exact plainWord_append (plainWord_append h.1 (by decide)) h.2

end Column

namespace Expr

/-- The names that values are bound to. -/
def names : Expr → List String
  | column _ | constant _ | count | noElse | rank .. => []
  | bound name => [name]
  | call _ e | isNull _ e | case e | elseThen e | aggregate _ _ e => e.names
  | coalesce e e' | binary _ e e' | lookUp e _ _ e' => e.names ++ e'.names
  | whenThen e e' e'' => e.names ++ (e'.names ++ e''.names)
  | isIn e names => e.names ++ names
  | isInBound e name => e.names ++ [name]

/-- Every part of it is plain. -/
def plain : Expr → Bool
  | column c => c.plain
  | bound name => plainName name
  | constant spelling => plainWord spelling
  | call opening e => plainWord opening && e.plain
  | coalesce e e' => e.plain && e'.plain
  | count | noElse => true
  | aggregate function _ e => plainWord function && e.plain
  | binary operator e e' => plainWord operator && (e.plain && e'.plain)
  | isNull _ e | case e | elseThen e => e.plain
  | isIn e names => e.plain && names.all plainName
  | isInBound e name => e.plain && plainName name
  | whenThen e e' e'' => e.plain && (e'.plain && e''.plain)
  | lookUp e table label e' => plainWord table && plainWord label && (e.plain && e'.plain)
  | rank partition order =>
    partition.all Column.plain && order.all fun o => o.1.plain && plainWord o.2

theorem flatMap_placeholders (names : List String) :
    (names.map fun name => [Token.placeholder name]).flatMap Sql.names = names := by
  induction names with
  | nil => rfl
  | cons name names ih => simpa using ih

theorem flatMap_spellings {α : Type} (spelling : α → String) (l : List α) :
    (l.map fun a => [Token.word (spelling a)]).flatMap Sql.names = [] := by
  simp

theorem flatMap_orderParts (order : List (Column × String)) :
    (orderParts order).flatMap Sql.names = [] := by
  rw [orderParts, List.flatMap_map]
  exact List.flatMap_eq_nil_iff.mpr fun o _ => rfl

theorem names_tokens (e : Expr) : Sql.names e.tokens = e.names := by
  induction e with
  | column _ | bound _ | constant _ | count | noElse => rfl
  | call _ e ih | isNull _ e ih | case e ih | elseThen e ih | aggregate _ _ e ih
  | isInBound e _ ih =>
    simp [tokens, names, names_append, ih]
  | isIn e ns ih => simp [tokens, names, names_append, names_separated, flatMap_placeholders, ih]
  | coalesce e e' ih ih' | binary _ e e' ih ih' | lookUp e _ _ e' ih ih' =>
    simp [tokens, names, names_append, ih, ih']
  | whenThen e e' e'' ih ih' ih'' => simp [tokens, names, names_append, ih, ih', ih'']
  | rank partition order =>
    unfold tokens
    split <;> simp [names, names_append, names_separated, flatMap_orderParts]

theorem plain_orderParts {order : List (Column × String)}
    (h : ∀ o ∈ order, o.1.plain = true ∧ plainWord o.2 = true) :
    ∀ part ∈ orderParts order, Plain part := by
  intro part hpart
  obtain ⟨o, ho, rfl⟩ := List.mem_map.mp hpart
  simp only [plain_word, plain_nil, and_true]
  exact ⟨Column.plain_spelling (h o ho).1, (h o ho).2⟩

theorem plain_columns {columns : List Column} (h : ∀ c ∈ columns, c.plain = true) :
    ∀ part ∈ columns.map fun c => [Token.word c.spelling], Plain part := by
  intro part hpart
  obtain ⟨c, hc, rfl⟩ := List.mem_map.mp hpart
  simpa using Column.plain_spelling (h c hc)

theorem plain_tokens {e : Expr} (h : e.plain = true) : Plain e.tokens := by
  have hcomma : plainWord "," = true := by decide
  induction e with
  | column c => simpa [tokens] using Column.plain_spelling h
  | bound name => simpa [tokens, plain] using h
  | constant spelling => simpa [tokens, plain] using h
  | count => simp +decide [tokens]
  | noElse => simp [tokens]
  | call opening e ih =>
    simp only [plain, Bool.and_eq_true] at h
    simp +decide [tokens, h.1, ih h.2]
  | coalesce e e' ih ih' =>
    simp only [plain, Bool.and_eq_true] at h
    simp +decide [tokens, ih h.1, ih' h.2]
  | aggregate function distinct e ih =>
    simp only [plain, Bool.and_eq_true] at h
    have hopening : plainWord (if distinct then "(DISTINCT" else "(") = true := by
      cases distinct <;> decide
    simp +decide [tokens, plainWord_append h.1 hopening, ih h.2]
  | binary operator e e' ih ih' =>
    simp only [plain, Bool.and_eq_true] at h
    simp [tokens, h.1, ih h.2.1, ih' h.2.2]
  | isNull negated e ih =>
    cases negated <;> simp +decide [tokens, ih h]
  | isIn e names ih =>
    simp only [plain, Bool.and_eq_true, List.all_eq_true] at h
    have hnames : ∀ part ∈ names.map fun name => [Token.placeholder name], Plain part := by
      intro part hpart
      obtain ⟨name, hname, rfl⟩ := List.mem_map.mp hpart
      simpa using h.2 name hname
    simp +decide [tokens, ih h.1, plain_separated hcomma hnames]
  | isInBound e name ih =>
    simp only [plain, Bool.and_eq_true] at h
    simp +decide [tokens, ih h.1, h.2]
  | case e ih => simp +decide [tokens, ih h]
  | whenThen e e' e'' ih ih' ih'' =>
    simp only [plain, Bool.and_eq_true] at h
    simp +decide [tokens, ih h.1, ih' h.2.1, ih'' h.2.2]
  | elseThen e ih => simp +decide [tokens, ih h]
  | lookUp e table label e' ih ih' =>
    simp only [plain, Bool.and_eq_true] at h
    simp +decide [tokens, h.1, ih h.2.1, ih' h.2.2]
  | rank partition order =>
    simp only [plain, Bool.and_eq_true, List.all_eq_true] at h
    have hpartition := plain_separated hcomma (plain_columns h.1)
    have horder := plain_separated hcomma (plain_orderParts h.2)
    unfold tokens
    split
    · simp +decide [horder]
    · simp +decide [horder, hpartition]

end Expr

section Plain

theorem flatMap_tokens (es : List Expr) :
    (es.map Expr.tokens).flatMap names = es.flatMap Expr.names := by
  rw [List.flatMap_map]
  exact List.flatMap_congr fun e _ => e.names_tokens

theorem plain_exprs {es : List Expr} (h : es.all Expr.plain = true) :
    ∀ part ∈ es.map Expr.tokens, Plain part := by
  intro part hpart
  obtain ⟨e, he, rfl⟩ := List.mem_map.mp hpart
  exact Expr.plain_tokens (List.all_eq_true.mp h e he)

def Source.plain (s : Source) : Bool := plainWord s.table && plainWord s.label

theorem Source.names_tokens (s : Source) : Sql.names s.tokens = [] := by
  unfold tokens
  split <;> rfl

theorem Source.plain_tokens {s : Source} (h : s.plain = true) : Plain s.tokens := by
  have h : plainWord s.table = true ∧ plainWord s.label = true := by simpa [plain] using h
  unfold tokens
  split <;> simp [h]

def Join.plain (j : Join) : Bool := j.source.plain && j.on.all Expr.plain

theorem Join.names_tokens (j : Join) : Sql.names j.tokens = j.on.flatMap Expr.names := by
  rw [tokens, List.cons_append, names_word, names_append, Source.names_tokens, names_clause,
    flatMap_tokens, List.nil_append]

theorem Join.plain_tokens {j : Join} (h : j.plain = true) : Plain j.tokens := by
  obtain ⟨hsource, hon⟩ := Bool.and_eq_true_iff.mp h
  have hkeyword : plainWord (if j.outer then "LEFT JOIN" else "JOIN") = true := by
    cases j.outer <;> decide
  rw [tokens, List.cons_append, plain_word, plain_append]
  exact ⟨hkeyword, Source.plain_tokens hsource,
    plain_clause (by decide) (by decide) (plain_exprs hon)⟩

def Item.names : Item → List String
  | star _ => []
  | expr e _ => e.names

def Item.plain : Item → Bool
  | star source => source.all plainWord
  | expr e label => e.plain && label.all plainWord

theorem Item.names_tokens (item : Item) : Sql.names item.tokens = item.names := by
  rcases item with (_ | source) | ⟨e, _ | label⟩
  · rfl
  · rfl
  · exact e.names_tokens
  · rw [tokens, names_append, Expr.names_tokens]
    exact List.append_nil _

theorem Item.plain_tokens {item : Item} (h : item.plain = true) : Plain item.tokens := by
  rcases item with (_ | source) | ⟨e, _ | label⟩
  · simp +decide [tokens]
  · rw [tokens, plain_word]
    exact ⟨plainWord_append h (by decide), plain_nil⟩
  · exact Expr.plain_tokens (Bool.and_eq_true_iff.mp h).1
  · obtain ⟨he, hlabel⟩ := Bool.and_eq_true_iff.mp h
    rw [tokens, plain_append]
    exact ⟨Expr.plain_tokens he, by simpa +decide using hlabel⟩

namespace Select

variable (s : Select)

def names : List String :=
  s.items.flatMap Item.names ++ s.joins.flatMap (fun j => j.on.flatMap Expr.names) ++
    s.conditions.flatMap Expr.names ++ s.having.flatMap Expr.names ++ s.limit.toList

def plain : Bool :=
  s.items.all Item.plain && s.source.plain && s.joins.all Join.plain &&
    s.conditions.all Expr.plain && s.groupBy.all Column.plain && s.having.all Expr.plain &&
    (s.orderBy.all fun o => o.1.plain && plainWord o.2) && s.limit.all plainName

theorem names_tokens : Sql.names s.tokens = s.names := by
  have hitems : (s.items.map Item.tokens).flatMap Sql.names = s.items.flatMap Item.names := by
    rw [List.flatMap_map]
    exact List.flatMap_congr fun item _ => item.names_tokens
  have hjoins : Sql.names (s.joins.flatMap Join.tokens) =
      s.joins.flatMap fun j => j.on.flatMap Expr.names := by
    induction s.joins with
    | nil => rfl
    | cons j joins ih =>
      rw [List.flatMap_cons, names_append, ih, Join.names_tokens, List.flatMap_cons]
  have hlimit : Sql.names (s.limit.toList.flatMap fun name =>
      [.word "LIMIT", .placeholder name]) = s.limit.toList := by
    cases s.limit <;> rfl
  simp only [tokens, names, names_append, List.cons_append, List.append_assoc, names_clause,
    names_word, Source.names_tokens, hitems, hjoins, hlimit, flatMap_tokens,
    Expr.flatMap_spellings, Expr.flatMap_orderParts, List.nil_append]

theorem plain_tokens {s : Select} (h : s.plain = true) : Plain s.tokens := by
  simp only [plain, Bool.and_eq_true] at h
  obtain
    ⟨⟨⟨⟨⟨⟨⟨hitems, hsource⟩, hjoins⟩, hconditions⟩, hgroupBy⟩, hhaving⟩, horderBy⟩, hlimit⟩ := h
  have hcomma : plainWord "," = true := by decide
  have hand : plainWord "AND" = true := by decide
  have hitems : ∀ part ∈ s.items.map Item.tokens, Plain part := by
    intro part hpart
    obtain ⟨item, hitem, rfl⟩ := List.mem_map.mp hpart
    exact Item.plain_tokens (List.all_eq_true.mp hitems item hitem)
  have hjoins : Plain (s.joins.flatMap Join.tokens) := by
    intro t ht
    obtain ⟨j, hj, ht⟩ := List.mem_flatMap.mp ht
    exact Join.plain_tokens (List.all_eq_true.mp hjoins j hj) t ht
  have hlimit : Plain (s.limit.toList.flatMap fun name => [.word "LIMIT", .placeholder name]) := by
    cases hname : s.limit with
    | none => exact plain_nil
    | some name => simpa +decide [hname] using hlimit
  have horderBy := List.all_eq_true.mp horderBy
  simp only [Bool.and_eq_true] at horderBy
  simp only [tokens, plain_append, plain_word, and_assoc]
  refine ⟨plain_clause (by decide) hcomma hitems, by decide, Source.plain_tokens hsource, hjoins,
    plain_clause (by decide) hand (plain_exprs hconditions), ?_, ?_, ?_, hlimit⟩
  · exact plain_clause (by decide) hcomma (Expr.plain_columns (List.all_eq_true.mp hgroupBy))
  · exact plain_clause (by decide) hand (plain_exprs hhaving)
  · exact plain_clause (by decide) hcomma (Expr.plain_orderParts horderBy)

/-- A selection of all rows. -/
def unconditioned : Select := { s with conditions := [] }

theorem plain_iff :
    s.plain = true ↔ s.unconditioned.plain = true ∧ ∀ e ∈ s.conditions, e.plain = true := by
  simp only [plain, unconditioned, Bool.and_eq_true, List.all_eq_true (p := Expr.plain),
    List.not_mem_nil, false_implies, implies_true, and_true]
  constructor
  · rintro ⟨⟨⟨⟨⟨hrest, hconditions⟩, hgroupBy⟩, hhaving⟩, horderBy⟩, hlimit⟩
    exact ⟨⟨⟨⟨⟨hrest, hgroupBy⟩, hhaving⟩, horderBy⟩, hlimit⟩, hconditions⟩
  · rintro ⟨⟨⟨⟨⟨hrest, hgroupBy⟩, hhaving⟩, horderBy⟩, hlimit⟩, hconditions⟩
    exact ⟨⟨⟨⟨⟨hrest, hconditions⟩, hgroupBy⟩, hhaving⟩, horderBy⟩, hlimit⟩

theorem mem_names_iff {name : String} :
    name ∈ s.names ↔ name ∈ s.unconditioned.names ∨ ∃ e ∈ s.conditions, name ∈ e.names := by
  simp only [names, unconditioned, List.mem_append, List.mem_flatMap, List.not_mem_nil,
    false_and, exists_false, false_or, or_left_comm, or_comm]

end Select

namespace Query

variable (q : Query)

def names : List String := q.tables.flatMap (fun t => t.2.names) ++ q.body.names

def plain : Bool := (q.tables.all fun t => plainWord t.1 && t.2.plain) && q.body.plain

/-- The placeholders that are read in the text of a plain query are the ones it was given. -/
theorem placeholders_text {q : Query} (h : q.plain = true) : placeholders q.text = q.names := by
  obtain ⟨htables, hbody⟩ := Bool.and_eq_true_iff.mp h
  have hplain : Plain q.tokens := by
    rw [tokens, plain_append]
    refine ⟨plain_clause (by decide) (by decide) ?_, Select.plain_tokens hbody⟩
    intro part hpart
    obtain ⟨t, ht, rfl⟩ := List.mem_map.mp hpart
    obtain ⟨hname, hselect⟩ := Bool.and_eq_true_iff.mp (List.all_eq_true.mp htables t ht)
    rw [List.cons_append, List.cons_append, plain_word, plain_word, plain_append]
    exact ⟨hname, by decide, Select.plain_tokens hselect, by simp +decide⟩
  have hnames : (q.tables.map fun t =>
      Token.word t.1 :: .word "AS (" :: t.2.tokens ++ [.word ")"]).flatMap Sql.names =
        q.tables.flatMap fun t => t.2.names := by
    rw [List.flatMap_map]
    apply List.flatMap_congr
    intro t _
    rw [List.cons_append, List.cons_append, names_word, names_word, names_append,
      Select.names_tokens]
    exact List.append_nil _
  rw [text, placeholders_textOf hplain, tokens, names_append, names_clause, hnames,
    Select.names_tokens]
  rfl

end Query

end Plain

/-! ### Scope -/

/-- Tables with their columns, and the sources of a query with theirs. -/
abbrev Schema := List (String × List String)

/-- A column of one of the sources; without a source it is a column of exactly one. -/
def Schema.has (scope : Schema) (c : Column) : Bool :=
  match c.source with
  | some source => scope.any fun s => s.1 = source && s.2.contains c.name
  | none => (scope.filter fun s => s.2.contains c.name).length = 1

/-- No aggregate function and no `RANK()`, as in a condition. -/
def Expr.rowwise : Expr → Bool
  | column _ | bound _ | constant _ | noElse => true
  | call _ e | isNull _ e | isIn e _ | isInBound e _ | case e | elseThen e => e.rowwise
  | coalesce e e' | binary _ e e' | lookUp e _ _ e' => e.rowwise && e'.rowwise
  | whenThen e e' e'' => e.rowwise && e'.rowwise && e''.rowwise
  | count | aggregate .. | rank .. => false

def Expr.aggregated : Expr → Bool
  | column _ | bound _ | constant _ | noElse | rank .. | lookUp .. => false
  | call _ e | isNull _ e | isIn e _ | isInBound e _ | case e | elseThen e => e.aggregated
  | coalesce e e' | binary _ e e' => e.aggregated || e'.aggregated
  | whenThen e e' e'' => e.aggregated || e'.aggregated || e''.aggregated
  | count | aggregate .. => true

/-- Outside the aggregate functions there are only columns that the rows are grouped by. -/
def Expr.grouped (keys : List Column) : Expr → Bool
  | column c => keys.contains c
  | bound _ | constant _ | noElse | count => true
  | call _ e | isNull _ e | isIn e _ | isInBound e _ | case e | elseThen e => e.grouped keys
  | coalesce e e' | binary _ e e' => e.grouped keys && e'.grouped keys
  | whenThen e e' e'' => e.grouped keys && e'.grouped keys && e''.grouped keys
  | aggregate _ _ e => e.rowwise
  | lookUp e _ _ e' => e.rowwise && e'.rowwise
  | rank .. => false

/-- All columns are columns of the sources, or of the table of the inner query. -/
def Expr.scoped (schema scope : Schema) : Expr → Bool
  | column c => scope.has c
  | bound _ | constant _ | noElse | count => true
  | call _ e | isNull _ e | isIn e _ | isInBound e _ | case e | elseThen e | aggregate _ _ e =>
    e.scoped schema scope
  | coalesce e e' | binary _ e e' => e.scoped schema scope && e'.scoped schema scope
  | whenThen e e' e'' =>
    e.scoped schema scope && e'.scoped schema scope && e''.scoped schema scope
  | lookUp e table label e' =>
    match schema.lookup table with
    | some columns => e.scoped schema [(label, columns)] && e'.scoped schema [(label, columns)]
    | none => false
  | rank partition order => partition.all scope.has && order.all fun o => scope.has o.1

/-- What can be a condition on the rows of the sources. -/
def Expr.condition (schema scope : Schema) (e : Expr) : Bool := e.scoped schema scope && e.rowwise

/-- The sources with those of the joins, each of which names only what comes before or itself. -/
def joined (schema : Schema) : Schema → List Join → Option Schema
  | scope, [] => some scope
  | scope, j :: joins =>
    match schema.lookup j.source.table with
    | some columns =>
      let scope := scope ++ [(j.source.label, columns)]
      if j.on.all (Expr.condition schema scope) then joined schema scope joins else none
    | none => none

namespace Select

variable (s : Select) (schema : Schema)

def scope : Option Schema :=
  match schema.lookup s.source.table with
  | some columns => joined schema [(s.source.label, columns)] s.joins
  | none => none

def isGrouped : Bool :=
  !s.groupBy.isEmpty || !s.having.isEmpty || s.items.any fun
    | .star _ => false
    | .expr e _ => e.aggregated

/-- The names of the columns of the result. -/
def outputs (scope : Schema) : List String :=
  s.items.flatMap fun
    | .star none => scope.flatMap Prod.snd
    | .star (some source) => (scope.lookup source).getD []
    | .expr _ (some label) => [label]
    | .expr (.column c) none => [c.name]
    | .expr _ none => []

def itemScoped (scope : Schema) : Item → Bool
  | .star none => !s.isGrouped
  | .star (some source) => (scope.lookup source).isSome && !s.isGrouped
  | .expr e _ => e.scoped schema scope && (!s.isGrouped || e.grouped s.groupBy)

/-- Everything but the conditions. -/
def skeletonScoped (scope : Schema) : Bool :=
  decide (scope.map Prod.fst).Nodup &&
    s.groupBy.all scope.has &&
    s.items.all (s.itemScoped schema scope) &&
    s.having.all (fun e => e.scoped schema scope && e.grouped s.groupBy) &&
    s.orderBy.all fun o => o.1.source = none && (s.outputs scope).contains o.1.name ||
      scope.has o.1 && !s.isGrouped

/-- Every name is the name of something that can be used in its place. -/
def wellScoped : Bool :=
  match s.scope schema with
  | some scope => s.skeletonScoped schema scope && s.conditions.all (Expr.condition schema scope)
  | none => false

/-- The columns of a table of `WITH`, where it can be one. -/
def columns : Option (List String) :=
  match s.scope schema with
  | some scope =>
    if s.wellScoped schema && decide (s.outputs scope).Nodup then some (s.outputs scope) else none
  | none => none

end Select

/-- The tables that the body of a query can use. -/
def Schema.extend : Schema → List (String × Select) → Option Schema
  | schema, [] => some schema
  | schema, (name, s) :: tables =>
    match s.columns schema with
    | some columns => Schema.extend ((name, columns) :: schema) tables
    | none => none

def Query.wellScoped (schema : Schema) (q : Query) : Bool :=
  match schema.extend q.tables with
  | some schema => q.body.wellScoped schema
  | none => false

theorem Schema.extend_append (schema : Schema) (tables tables' : List (String × Select)) :
    schema.extend (tables ++ tables') = (schema.extend tables).bind (·.extend tables') := by
  induction tables generalizing schema with
  | nil => rfl
  | cons t tables ih =>
    rw [List.cons_append, Schema.extend, Schema.extend]
    cases t.2.columns schema with
    | none => rfl
    | some columns => exact ih _

namespace Select

variable {s : Select} {schema scope : Schema} (hscope : s.scope schema = some scope)

include hscope

theorem wellScoped_iff :
    s.wellScoped schema = true ↔ s.unconditioned.wellScoped schema = true ∧
      ∀ e ∈ s.conditions, e.condition schema scope = true := by
  have hbare : s.unconditioned.scope schema = some scope := hscope
  have hskeleton :
      s.unconditioned.skeletonScoped schema scope = s.skeletonScoped schema scope := rfl
  have hnone : s.unconditioned.conditions = [] := rfl
  rw [wellScoped, wellScoped, hscope, hbare]
  simp only [hskeleton, hnone, List.all_nil, Bool.and_true, Bool.and_eq_true, List.all_eq_true]

/-- Conditions on columns in scope leave the columns of a table as they are. -/
theorem columns_eq (h : ∀ e ∈ s.conditions, e.condition schema scope = true) :
    s.columns schema = s.unconditioned.columns schema := by
  have hbare : s.unconditioned.scope schema = some scope := hscope
  have hwell : s.wellScoped schema = s.unconditioned.wellScoped schema := by
    rw [Bool.eq_iff_iff, wellScoped_iff hscope]
    exact ⟨fun hs => hs.1, fun hs => ⟨hs, h⟩⟩
  rw [columns, columns, hscope, hbare]
  simp only [hwell]
  rfl

end Select

/-! ### Operands -/

/-- What each bound value can be used for. -/
structure Operands where
  scalar : String → Bool
  list : String → Bool
  number : String → Bool

variable (operands : Operands)

def Expr.fits : Expr → Bool
  | column _ | constant _ | noElse | count | rank .. => true
  | bound name => operands.scalar name
  | call _ e | isNull _ e | case e | elseThen e | aggregate _ _ e => e.fits
  | coalesce e e' | binary _ e e' | lookUp e _ _ e' => e.fits && e'.fits
  | whenThen e e' e'' => e.fits && e'.fits && e''.fits
  | isIn e names => e.fits && !names.isEmpty && names.all operands.scalar
  | isInBound e name => e.fits && operands.list name

def Select.fits (s : Select) : Bool :=
  (s.items.all fun
    | .star _ => true
    | .expr e _ => e.fits operands) &&
  (s.joins.all fun j => j.on.all (Expr.fits operands)) &&
  s.conditions.all (Expr.fits operands) && s.having.all (Expr.fits operands) &&
  s.limit.all operands.number

theorem Select.fits_iff (s : Select) :
    s.fits operands = true ↔ s.unconditioned.fits operands = true ∧
      ∀ e ∈ s.conditions, e.fits operands = true := by
  simp only [Select.fits, Select.unconditioned, Bool.and_eq_true,
    List.all_eq_true (p := Expr.fits operands), List.not_mem_nil, false_implies, implies_true,
    and_true]
  constructor
  · rintro ⟨⟨⟨⟨hitems, hjoins⟩, hconditions⟩, hhaving⟩, hlimit⟩
    exact ⟨⟨⟨⟨hitems, hjoins⟩, hhaving⟩, hlimit⟩, hconditions⟩
  · rintro ⟨⟨⟨⟨hitems, hjoins⟩, hhaving⟩, hlimit⟩, hconditions⟩
    exact ⟨⟨⟨⟨hitems, hjoins⟩, hconditions⟩, hhaving⟩, hlimit⟩

/-- Every operator has an operand of its shape. -/
def Query.fits (q : Query) : Bool :=
  (q.tables.all fun t => t.2.fits operands) && q.body.fits operands

end Sql
