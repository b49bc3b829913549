import CrdForge.Crd.Rule
import CrdForge.Json

/-! Rules on the presence of fields, as the cluster reads them.

Rules are texts of an expression language. This is the part of it that asks which fields of an object are
present: `has` of a field, negation, conjunction, disjunction, parentheses. To ask for a field of
something that is not there is an error; a conjunction or disjunction has a value in spite of an error if
its other operand decides it. An object is accepted by a rule whose value is true, and by no rule that
cannot be read or has no value. -/
namespace CrdForge.Crd.Presence

/-! ### Words -/

/-- Words that are no identifiers. -/
def reserved : List String := [
  "as", "break", "const", "continue", "else", "false", "for", "function", "if", "import", "in", "let", "loop",
  "namespace", "null", "package", "return", "true", "var", "void", "while"]

/-- Characters of words. -/
def isWordChar (c : Char) : Bool := c.isAlphanum || c == '_'

def isIdentifier (name : String) : Bool :=
  name.toList.all isWordChar && name.toList.head?.any (!·.isDigit) && !reserved.contains name

inductive Token where
  | word (name : String)
  | dot
  | opening
  | closing
  | negation
  | conjunction
  | disjunction
  deriving DecidableEq

/-- The token of a word that was read, given backwards. -/
def wordToken (word : List Char) : List Token :=
  if word.isEmpty then [] else [.word (String.ofList word.reverse)]

/-- The tokens of a text after the characters of a word, which are given backwards. -/
def tokensAfter (word : List Char) : List Char → Option (List Token)
  | [] => some (wordToken word)
  | '&' :: '&' :: rest => (tokensAfter [] rest).map (wordToken word ++ .conjunction :: ·)
  | '|' :: '|' :: rest => (tokensAfter [] rest).map (wordToken word ++ .disjunction :: ·)
  | c :: rest =>
    if isWordChar c then tokensAfter (c :: word) rest
    else match c with
      | ' ' => (tokensAfter [] rest).map (wordToken word ++ ·)
      | '.' => (tokensAfter [] rest).map (wordToken word ++ .dot :: ·)
      | '(' => (tokensAfter [] rest).map (wordToken word ++ .opening :: ·)
      | ')' => (tokensAfter [] rest).map (wordToken word ++ .closing :: ·)
      | '!' => (tokensAfter [] rest).map (wordToken word ++ .negation :: ·)
      | _ => none

/-! ### Expressions -/

inductive Expression where
  /-- Whether the field at the end of a chain of fields is present in the object. -/
  | has (fields : List String)
  | not (operand : Expression)
  | and (left right : Expression)
  | or (left right : Expression)

/-- What is read from the start of a list of tokens, and the tokens after it. -/
abbrev Reader := List Token → Option (Expression × List Token)

/-- The fields that follow, each behind a dot. -/
def fields : List Token → List String × List Token
  | .dot :: .word name :: rest => ((name :: (fields rest).1), (fields rest).2)
  | tokens => ([], tokens)

/-- The operand of `has`: a chain of fields of the object. -/
def readFields (tokens : List Token) : Option (Expression × List Token) :=
  match fields tokens with
  | (names, .closing :: rest) =>
    if !names.isEmpty && names.all isIdentifier then some (.has names, rest) else none
  | _ => none

/-- An operand, given how an expression between parentheses is read. -/
def readOperand (inner : Reader) : Reader
  | .negation :: rest => (readOperand inner rest).map fun (operand, rest) => (.not operand, rest)
  | .opening :: rest =>
    match inner rest with
    | some (expression, .closing :: rest) => some (expression, rest)
    | _ => none
  | .word "has" :: .opening :: .word "self" :: rest => readFields rest
  | _ => none

/-- The operands that follow, each behind an operator, which binds to the left. -/
def readMore (operator : Token) (combine : Expression → Expression → Expression) (operand : Reader) :
    Nat → Expression → Reader
  | steps + 1, left, token :: rest =>
    if token = operator then
      (operand rest).bind fun (right, rest) =>
        readMore operator combine operand steps (combine left right) rest
    else some (left, token :: rest)
  | _, left, [] => some (left, [])
  | 0, _, _ :: _ => none

/-- Operands with an operator between them. -/
def readChain (operator : Token) (combine : Expression → Expression → Expression)
    (operand : Reader) : Reader :=
  fun tokens => (operand tokens).bind fun (left, rest) =>
    readMore operator combine operand rest.length left rest

/-- An expression, with parentheses nested no deeper than the first argument says. -/
def readWithin : Nat → Reader
  | 0 => fun _ => none
  | depth + 1 =>
    readChain .disjunction .or (readChain .conjunction .and (readOperand (readWithin depth)))

/-- The expression of a text, if it is one. -/
def read (text : String) : Option Expression :=
  (tokensAfter [] text.toList).bind fun tokens =>
    match readWithin (tokens.length + 1) tokens with
    | some (expression, []) => some expression
    | _ => none

/-! ### Values -/

/-- Whether the field at the end of a chain of fields is present. There is no answer if something before
the last field is missing, or is no object. -/
def present? : Json → List String → Option Bool
  | .object entries, [field] => some (Keyed.has field entries)
  | .object entries, field :: rest => (entries.lookup field).bind (present? · rest)
  | _, _ => none

/-- The value of an expression, if it has one. -/
def Expression.value? (object : Json) : Expression → Option Bool
  | .has fields => present? object fields
  | .not operand => (operand.value? object).map Bool.not
  | .and left right =>
    match left.value? object, right.value? object with
    | some false, _ => some false
    | _, some false => some false
    | some true, some true => some true
    | _, _ => none
  | .or left right =>
    match left.value? object, right.value? object with
    | some true, _ => some true
    | _, some true => some true
    | some false, some false => some false
    | _, _ => none

/-- Whether a rule can be read and is true of an object. -/
def Accepts (object : Json) (rule : Rule) : Prop :=
  ∃ expression, read rule.rule = some expression ∧ expression.value? object = some true

/-! ### Values of compound expressions -/

section
variable {object : Json} {left right operand : Expression}

theorem value?_not :
    (Expression.not operand).value? object = some true ↔ operand.value? object = some false := by
  simp [Expression.value?]

theorem value?_and : (Expression.and left right).value? object = some true ↔
    left.value? object = some true ∧ right.value? object = some true := by
  simp only [Expression.value?]
  rcases left.value? object with _ | _ | _ <;> rcases right.value? object with _ | _ | _ <;> simp

theorem value?_or : (Expression.or left right).value? object = some true ↔
    left.value? object = some true ∨ right.value? object = some true := by
  simp only [Expression.value?]
  rcases left.value? object with _ | _ | _ <;> rcases right.value? object with _ | _ | _ <;> simp

theorem value?_foldl_and (more : List Expression) : (more.foldl .and left).value? object = some true ↔
    left.value? object = some true ∧ ∀ other ∈ more, other.value? object = some true := by
  induction more generalizing left with
  | nil => simp
  | cons other more ih => simp [ih, value?_and, and_assoc]

theorem value?_foldl_or (more : List Expression) : (more.foldl .or left).value? object = some true ↔
    left.value? object = some true ∨ ∃ other ∈ more, other.value? object = some true := by
  induction more generalizing left with
  | nil => simp
  | cons other more ih => simp [ih, value?_or, or_assoc]

end

/-! ### Tokens -/

theorem tokensAfter_wordChar {c : Char} (h : isWordChar c = true) (word rest : List Char) :
    tokensAfter word (c :: rest) = tokensAfter (c :: word) rest := by
  rw [tokensAfter]
  · rw [if_pos h]
  all_goals
    intros
    simp_all [isWordChar]

theorem tokensAfter_word {name : List Char} (h : ∀ c ∈ name, isWordChar c = true) (word rest : List Char) :
    tokensAfter word (name ++ rest) = tokensAfter (name.reverse ++ word) rest := by
  induction name generalizing word with
  | nil => rfl
  | cons c name ih =>
    rw [List.cons_append, tokensAfter_wordChar (h c (List.mem_cons_self ..)),
      ih fun c hc => h c (List.mem_cons_of_mem _ hc)]
    simp

theorem isIdentifier_chars {name : String} (h : isIdentifier name = true) :
    (∀ c ∈ name.toList, isWordChar c = true) ∧ name.toList ≠ [] := by
  simp only [isIdentifier, Bool.and_eq_true, List.all_eq_true] at h
  refine ⟨h.1.1, fun he => ?_⟩
  simp [he] at h

theorem wordToken_reverse {name : String} (h : name.toList ≠ []) :
    wordToken name.toList.reverse = [.word name] := by
  have he : name.toList.reverse.isEmpty = false := by simpa using h
  simp [wordToken, he]

/-- The characters of a chain of fields, each behind a dot. -/
def fieldChars (names : List String) : List Char := names.flatMap fun name => '.' :: name.toList

/-- The tokens of a chain of fields. -/
def fieldTokens (names : List String) : List Token := names.flatMap fun name => [.dot, .word name]

theorem tokensAfter_fields {names : List String} (h : ∀ name ∈ names, isIdentifier name = true)
    (word rest : List Char) :
    tokensAfter word (fieldChars names ++ ')' :: rest) =
      (tokensAfter [] rest).map (wordToken word ++ fieldTokens names ++ .closing :: ·) := by
  induction names generalizing word with
  | nil =>
    rw [fieldChars, fieldTokens, List.flatMap_nil, List.flatMap_nil, List.nil_append, List.append_nil]
    rfl
  | cons name names ih =>
    obtain ⟨hc, hn⟩ := isIdentifier_chars (h name (List.mem_cons_self ..))
    have hd : tokensAfter word ('.' :: (name.toList ++ (fieldChars names ++ ')' :: rest))) =
        (tokensAfter [] (name.toList ++ (fieldChars names ++ ')' :: rest))).map
          (wordToken word ++ .dot :: ·) := rfl
    rw [show fieldChars (name :: names) ++ ')' :: rest = '.' :: (name.toList ++
      (fieldChars names ++ ')' :: rest)) by
        simp [fieldChars], hd, tokensAfter_word hc, List.append_nil,
      ih (fun name hm => h name (List.mem_cons_of_mem _ hm)), wordToken_reverse hn, Option.map_map]
    congr 1
    funext tokens
    simp [fieldTokens]

/-- Whether a text has these tokens, whatever follows it. -/
def Lexes (chars : List Char) (tokens : List Token) : Prop :=
  ∀ rest, tokensAfter [] (chars ++ rest) = (tokensAfter [] rest).map (tokens ++ ·)

theorem Lexes.append {chars more : List Char} {tokens others : List Token} (h : Lexes chars tokens)
    (hm : Lexes more others) : Lexes (chars ++ more) (tokens ++ others) := by
  intro rest
  rw [List.append_assoc, h, hm, Option.map_map]
  congr 1
  funext following
  exact (List.append_assoc ..).symm

theorem Lexes.intercalate {α : Type} {separator : List Char} {between : List Token}
    (hs : Lexes separator between) {chars : α → List Char} {tokens : α → List Token} {parts : List α}
    (h : ∀ part ∈ parts, Lexes (chars part) (tokens part)) :
    Lexes (separator.intercalate (parts.map chars)) (between.intercalate (parts.map tokens)) := by
  induction parts with
  | nil =>
    intro rest
    simp
  | cons first more ih =>
    have hf := h first (List.mem_cons_self ..)
    cases more with
    | nil => simpa using hf
    | cons second more =>
      have hm := ih fun part hp => h part (List.mem_cons_of_mem _ hp)
      simp only [List.map_cons, List.intercalate_cons_cons] at hm ⊢
      exact (hf.append hs).append hm

/-! ### Texts of conditions -/

/-- A question about the end of a chain of fields: whether it is present, or whether it is not. -/
structure Asked where
  fields : List String
  present : Bool

namespace Asked

def literal (asked : Asked) : Literal := ⟨".".intercalate asked.fields, asked.present⟩

/-- Whether the question can be put as a text. -/
def Readable (asked : Asked) : Prop := asked.fields ≠ [] ∧ ∀ name ∈ asked.fields, isIdentifier name = true

def Holds (asked : Asked) (object : Json) : Prop := present? object asked.fields = some asked.present

def tokens (asked : Asked) : List Token :=
  (if asked.present then [] else [.negation]) ++ .word "has" :: .opening :: .word "self" ::
    (fieldTokens asked.fields ++ [.closing])

def expression (asked : Asked) : Expression :=
  if asked.present then .has asked.fields else .not (.has asked.fields)

end Asked

theorem fieldChars_eq {names : List String} (h : names ≠ []) :
    fieldChars names = '.' :: (".".intercalate names).toList := by
  induction names with
  | nil => exact absurd rfl h
  | cons name rest ih =>
    cases rest with
    | nil => simp [fieldChars]
    | cons second rest =>
      have ih := ih (List.cons_ne_nil _ _)
      rw [fieldChars, List.flatMap_cons, ← fieldChars, ih, String.intercalate_cons_cons]
      simp

theorem Asked.lexes {asked : Asked} (h : asked.Readable) : Lexes asked.literal.text.toList asked.tokens := by
  have hp : Lexes (presenceText asked.literal.field).toList
      (.word "has" :: .opening :: .word "self" :: (fieldTokens asked.fields ++ [.closing])) := by
    intro rest
    have ht : (presenceText asked.literal.field).toList ++ rest =
        ['h', 'a', 's', '(', 's', 'e', 'l', 'f'] ++ (fieldChars asked.fields ++ ')' :: rest) := by
      rw [fieldChars_eq h.1]
      simp [presenceText, literal]
    have hw (more : List Char) : tokensAfter [] (['h', 'a', 's', '(', 's', 'e', 'l', 'f'] ++ more) =
        (tokensAfter ['f', 'l', 'e', 's'] more).map ([.word "has", .opening] ++ ·) := rfl
    rw [ht, hw, tokensAfter_fields h.2, Option.map_map]
    congr 1
    funext tokens
    simp [wordToken]
  rw [Literal.text, tokens, String.toList_append]
  refine Lexes.append ?_ hp
  show Lexes (if asked.present then "" else "!").toList _
  intro rest
  have hw : isWordChar '!' = false := by decide
  cases asked.present <;> simp [tokensAfter, wordToken, hw]

/-- The tokens of questions that are all asked. -/
def clauseTokens (clause : List Asked) : List Token :=
  .opening :: ([Token.conjunction].intercalate (clause.map Asked.tokens) ++ [.closing])

theorem lexes_clause {clause : List Asked} (h : ∀ asked ∈ clause, asked.Readable) :
    Lexes (clauseText (clause.map Asked.literal)).toList (clauseTokens clause) := by
  have ho : Lexes ['('] [.opening] := fun _ => rfl
  have hc : Lexes [')'] [.closing] := fun _ => rfl
  have ha : Lexes [' ', '&', '&', ' '] [.conjunction] := by
    intro rest
    show ((tokensAfter [] rest).map _ |>.map _ |>.map _) = _
    simp only [Option.map_map]
    rfl
  have hi : Lexes ([' ', '&', '&', ' '].intercalate (clause.map fun asked => asked.literal.text.toList))
      ([Token.conjunction].intercalate (clause.map Asked.tokens)) :=
    ha.intercalate fun asked hm => Asked.lexes (h asked hm)
  have ht : (clauseText (clause.map Asked.literal)).toList =
      ['('] ++ [' ', '&', '&', ' '].intercalate
        (clause.map fun asked => asked.literal.text.toList) ++ [')'] := by
    simp [clauseText, Function.comp_def]
  rw [ht]
  exact (ho.append hi).append hc

theorem lexes_condition {clauses : List (List Asked)}
    (h : ∀ clause ∈ clauses, ∀ asked ∈ clause, asked.Readable) :
    Lexes (Condition.anyOf (clauses.map (·.map Asked.literal))).text.toList
      ([Token.disjunction].intercalate (clauses.map clauseTokens)) := by
  have ho : Lexes [' ', '|', '|', ' '] [.disjunction] := by
    intro rest
    show ((tokensAfter [] rest).map _ |>.map _ |>.map _) = _
    simp only [Option.map_map]
    rfl
  have hi : Lexes ([' ', '|', '|', ' '].intercalate
      (clauses.map fun clause => (clauseText (clause.map Asked.literal)).toList))
      ([Token.disjunction].intercalate (clauses.map clauseTokens)) :=
    ho.intercalate fun clause hm => lexes_clause (h clause hm)
  have ht : (Condition.anyOf (clauses.map (·.map Asked.literal))).text.toList =
      [' ', '|', '|', ' '].intercalate
        (clauses.map fun clause => (clauseText (clause.map Asked.literal)).toList) := by
    simp [Condition.text, Function.comp_def]
  rw [ht]
  exact hi

/-! ### Reading -/

/-- Whether an expression is read from tokens, if what follows them is an end. -/
def Reads (ends : List Token → Prop) (reader : Reader) (tokens : List Token)
    (expression : Expression) : Prop :=
  ∀ rest, ends rest → reader (tokens ++ rest) = some (expression, rest)

theorem fields_fieldTokens (names : List String) (rest : List Token) :
    fields (fieldTokens names ++ .closing :: rest) = (names, .closing :: rest) := by
  induction names with
  | nil => rfl
  | cons name names ih =>
    have hf : fieldTokens (name :: names) ++ .closing :: rest =
        .dot :: .word name :: (fieldTokens names ++ .closing :: rest) := by simp [fieldTokens]
    rw [hf, fields, ih]

theorem Asked.reads {asked : Asked} (h : asked.Readable) (inner : Reader) :
    Reads (fun _ => True) (readOperand inner) asked.tokens asked.expression := by
  have hf (rest : List Token) : readOperand inner
      (.word "has" :: .opening :: .word "self" :: (fieldTokens asked.fields ++ .closing :: rest)) =
        some (.has asked.fields, rest) := by
    have hall : (!asked.fields.isEmpty && asked.fields.all isIdentifier) = true := by
      rw [Bool.and_eq_true, List.all_eq_true]
      refine ⟨?_, h.2⟩
      simpa using h.1
    rw [readOperand, readFields, fields_fieldTokens]
    exact if_pos hall
  intro rest _
  rw [tokens, expression]
  cases asked.present with
  | true => simpa using hf rest
  | false =>
    simp [readOperand, hf]

section
variable {operator : Token} {combine : Expression → Expression → Expression} {operand : Reader} {α : Type}
  {tokens : α → List Token} {expression : α → Expression} {ends : List Token → Prop}

theorem readMore_all {more : List α} {rest : List Token}
    (h : ∀ part ∈ more, Reads ends operand (tokens part) (expression part))
    (he : ∀ following, ends (operator :: following)) (hr : rest.head? ≠ some operator) (hends : ends rest)
    (steps : Nat) (hs : more.length + rest.length ≤ steps) (left : Expression) :
    readMore operator combine operand steps left
      (more.flatMap (fun part => operator :: tokens part) ++ rest) =
      some ((more.map expression).foldl combine left, rest) := by
  induction more generalizing steps left with
  | nil =>
    cases rest with
    | nil => cases steps <;> rfl
    | cons token rest =>
      cases steps with
      | zero => simp at hs
      | succ steps =>
        have hn : token ≠ operator := fun he => hr (congrArg some he)
        show (if token = operator then _ else _) = _
        rw [if_neg hn]
        rfl
  | cons part more ih =>
    cases steps with
    | zero => simp at hs
    | succ steps =>
      have hp := h part (List.mem_cons_self ..)
      have hs : more.length + rest.length ≤ steps := by
        simp only [List.length_cons] at hs
        omega
      have hn : ends (more.flatMap (fun part => operator :: tokens part) ++ rest) := by
        cases more with
        | nil => exact hends
        | cons other more => exact he _
      rw [List.flatMap_cons, List.cons_append, List.cons_append, List.append_assoc, readMore,
        if_pos rfl, hp _ hn]
      exact ih (fun part hm => h part (List.mem_cons_of_mem _ hm)) steps hs _

theorem intercalate_eq_flatMap (tokens : α → List Token) (first : α) (more : List α) :
    [operator].intercalate ((first :: more).map tokens) =
      tokens first ++ more.flatMap fun part => operator :: tokens part := by
  induction more generalizing first with
  | nil => simp
  | cons second more ih =>
    have ih := ih second
    simp only [List.map_cons, List.intercalate_cons_cons] at ih ⊢
    rw [ih]
    simp

theorem readChain_all {first : α} {more : List α} {rest : List Token}
    (h : ∀ part ∈ first :: more, Reads ends operand (tokens part) (expression part))
    (he : ∀ following, ends (operator :: following)) (hr : rest.head? ≠ some operator) (hends : ends rest) :
    readChain operator combine operand ([operator].intercalate ((first :: more).map tokens) ++ rest) =
      some ((more.map expression).foldl combine (expression first), rest) := by
  have hl : more.length ≤ (more.flatMap fun part => operator :: tokens part).length := by
    clear h
    induction more with
    | nil => simp
    | cons part more ih =>
      simp only [List.flatMap_cons, List.length_append, List.length_cons]
      omega
  have hn : ends (more.flatMap (fun part => operator :: tokens part) ++ rest) := by
    cases more with
    | nil => exact hends
    | cons other more => exact he _
  rw [readChain, intercalate_eq_flatMap, List.append_assoc, h first (List.mem_cons_self ..) _ hn]
  refine readMore_all (fun part hm => h part (List.mem_cons_of_mem _ hm)) he hr hends _ ?_ _
  rw [List.length_append]
  omega

end

/-- The expression of questions that are all asked. -/
def clauseExpression : List Asked → Expression
  | [] => .has []
  | first :: more => (more.map Asked.expression).foldl .and first.expression

/-- The expression of clauses of which one is chosen. -/
def conditionExpression : List (List Asked) → Expression
  | [] => .has []
  | first :: more => (more.map clauseExpression).foldl .or (clauseExpression first)

/-- An operand that is not part of a conjunction is a conjunction of one. -/
theorem readChain_single {operand : Reader} {tokens : List Token} {expression : Expression}
    (h : Reads (fun _ => True) operand tokens expression) {combine : Expression → Expression → Expression}
    {operator : Token} :
    Reads (·.head? ≠ some operator) (readChain operator combine operand) tokens expression := by
  intro rest hr
  rw [readChain, h rest trivial]
  cases rest with
  | nil => rfl
  | cons token rest =>
    have hn : token ≠ operator := fun he => hr (congrArg some he)
    show (if token = operator then _ else _) = _
    exact if_neg hn

theorem reads_clause (depth : Nat) {clause : List Asked} (hc : clause ≠ [])
    (h : ∀ asked ∈ clause, asked.Readable) :
    Reads (fun _ => True) (readOperand (readWithin (depth + 1))) (clauseTokens clause)
      (clauseExpression clause) := by
  intro rest _
  cases clause with
  | nil => exact absurd rfl hc
  | cons first more =>
    -- Between the parentheses stands a disjunction of one conjunction.
    have hconjunction : readChain .conjunction .and (readOperand (readWithin depth))
        ([Token.conjunction].intercalate ((first :: more).map Asked.tokens) ++ .closing :: rest) =
          some (clauseExpression (first :: more), .closing :: rest) :=
      readChain_all (fun asked hm => Asked.reads (h asked hm) _) (fun _ => trivial) (by simp) trivial
    have hdisjunction : readWithin (depth + 1)
        ([Token.conjunction].intercalate ((first :: more).map Asked.tokens) ++ .closing :: rest) =
          some (clauseExpression (first :: more), .closing :: rest) := by
      rw [readWithin, readChain, hconjunction]
      rfl
    rw [clauseTokens, List.cons_append, List.append_assoc, readOperand]
    show (match readWithin (depth + 1)
      ([Token.conjunction].intercalate ((first :: more).map Asked.tokens) ++ .closing :: rest) with
        | some (expression, .closing :: rest) => some (expression, rest)
        | _ => none) = _
    rw [hdisjunction]

/-- **The text of a condition is read as the condition.** -/
theorem read_condition {clauses : List (List Asked)} (hne : clauses ≠ [])
    (hc : ∀ clause ∈ clauses, clause ≠ []) (h : ∀ clause ∈ clauses, ∀ asked ∈ clause, asked.Readable) :
    read (Condition.anyOf (clauses.map (·.map Asked.literal))).text = some (conditionExpression clauses) := by
  cases clauses with
  | nil => exact absurd rfl hne
  | cons first more =>
    have ht := lexes_condition h []
    rw [List.append_nil, show tokensAfter [] [] = some [] from rfl, Option.map_some, List.append_nil] at ht
    have hread (depth : Nat) : readWithin (depth + 2)
        ([Token.disjunction].intercalate ((first :: more).map clauseTokens)) =
          some (conditionExpression (first :: more), []) := by
      have hparts : ∀ clause ∈ first :: more, Reads (·.head? ≠ some .conjunction)
          (readChain .conjunction .and (readOperand (readWithin (depth + 1)))) (clauseTokens clause)
          (clauseExpression clause) :=
        fun clause hm => readChain_single (reads_clause depth (hc clause hm) (h clause hm))
      have hall : readWithin (depth + 2)
          ([Token.disjunction].intercalate ((first :: more).map clauseTokens) ++ []) =
            some (conditionExpression (first :: more), []) :=
        readChain_all hparts (by simp) (by simp) (by simp)
      rwa [List.append_nil] at hall
    have hpos : 0 < ([Token.disjunction].intercalate ((first :: more).map clauseTokens)).length := by
      rw [intercalate_eq_flatMap, clauseTokens]
      simp
    generalize [Token.disjunction].intercalate ((first :: more).map clauseTokens) = tokens at ht hread hpos
    obtain ⟨depth, hd⟩ := Nat.exists_eq_add_of_lt hpos
    rw [read, ht, Option.bind_some, hd, Nat.zero_add, hread]

/-! ### Values -/

theorem Asked.value?_expression (asked : Asked) (object : Json) :
    asked.expression.value? object = some true ↔ asked.Holds object := by
  rw [expression, Holds]
  cases asked.present with
  | true => exact Iff.rfl
  | false => exact value?_not

theorem value?_clauseExpression {clause : List Asked} (hc : clause ≠ []) (object : Json) :
    (clauseExpression clause).value? object = some true ↔ ∀ asked ∈ clause, asked.Holds object := by
  cases clause with
  | nil => exact absurd rfl hc
  | cons first more =>
    rw [clauseExpression, value?_foldl_and]
    simp [Asked.value?_expression]

/-- **An object is accepted by the text of a condition if all that some clause asks for holds of it.** -/
theorem accepts_condition {clauses : List (List Asked)} (hne : clauses ≠ [])
    (hc : ∀ clause ∈ clauses, clause ≠ []) (h : ∀ clause ∈ clauses, ∀ asked ∈ clause, asked.Readable)
    (object : Json) (message : String) :
    Accepts object ⟨(Condition.anyOf (clauses.map (·.map Asked.literal))).text, message⟩ ↔
      ∃ clause ∈ clauses, ∀ asked ∈ clause, asked.Holds object := by
  have hvalue : (conditionExpression clauses).value? object = some true ↔
      ∃ clause ∈ clauses, ∀ asked ∈ clause, asked.Holds object := by
    cases clauses with
    | nil => exact absurd rfl hne
    | cons first more =>
      rw [conditionExpression, value?_foldl_or, value?_clauseExpression (hc first (List.mem_cons_self ..))]
      constructor
      · rintro (hf | ⟨_, hm, hv⟩)
        · exact ⟨first, List.mem_cons_self .., hf⟩
        · obtain ⟨clause, hmore, rfl⟩ := List.mem_map.mp hm
          have hall := List.mem_cons_of_mem first hmore
          exact ⟨clause, hall, (value?_clauseExpression (hc clause hall) object).mp hv⟩
      · rintro ⟨clause, hm, hv⟩
        rcases List.mem_cons.mp hm with rfl | hm'
        · exact .inl hv
        · exact .inr ⟨_, List.mem_map.mpr ⟨clause, hm', rfl⟩,
            (value?_clauseExpression (hc clause hm) object).mpr hv⟩
  simp [Accepts, read_condition hne hc h, hvalue]

end CrdForge.Crd.Presence
