import CrdForge.Proofs.Crd.Presence
import Mathlib.Data.List.Nodup
import Mathlib.Logic.ExistsUnique
import Mathlib.Tactic.Tauto

/-! What the texts of conditions mean by the grammar of the expression language.

The grammar binds negations more tightly than conjunctions, and those more tightly than disjunctions.
Here it is a type of formulas with a level for each: a conjunction is made of operands, a disjunction of
conjunctions, and anything else has to stand between parentheses. So a formula is what its tokens are
parsed as, and no two formulas have the same tokens (`Formula.tokens_append_inj`).

The text of "exactly one of these fields" is the text of one formula, which is true exactly if one of the
fields is present and no other (`exactlyOneOf_means`). -/
namespace CrdForge.Crd.Presence

/-! ### Formulas -/

inductive Operator where
  | conjunction
  | disjunction

inductive Level where
  /-- Constants, questions, negations, and what stands between parentheses. -/
  | operand
  /-- Parts with an operator between them. -/
  | chain (operator : Operator)

namespace Operator

/-- What an operator stands between. -/
abbrev parts : Operator → Level
  | conjunction => .operand
  | disjunction => .chain .conjunction

def token : Operator → Token
  | conjunction => .conjunction
  | disjunction => .disjunction

/-- The value that does not matter to an operator. -/
def neutral : Operator → Bool
  | conjunction => true
  | disjunction => false

def combine : Operator → Bool → Bool → Bool
  | conjunction => and
  | disjunction => or

end Operator

/-- Formulas, level by level. A chain is taken as a whole: how its parts are
grouped does not matter to its value. -/
inductive Formula : Level → Type where
  | constant (value : Bool) : Formula .operand
  /-- Whether the field at the end of a chain of fields is present. -/
  | has (fields : List String) : Formula .operand
  | not (operand : Formula .operand) : Formula .operand
  | parenthesized (whole : Formula (.chain .disjunction)) : Formula .operand
  | last {operator : Operator} (part : Formula operator.parts) : Formula (.chain operator)
  | cons {operator : Operator} (part : Formula operator.parts) (rest : Formula (.chain operator)) :
    Formula (.chain operator)

namespace Formula

def tokens {level : Level} : Formula level → List Token
  | constant value => [.word (if value then "true" else "false")]
  | has fields => .word "has" :: .opening :: .word "self" :: (fieldTokens fields ++ [.closing])
  | not operand => .negation :: operand.tokens
  | parenthesized whole => .opening :: (whole.tokens ++ [.closing])
  | last part => part.tokens
  | @cons operator part rest => part.tokens ++ operator.token :: rest.tokens

/-- Whether all questions can be put: each is about a chain of identifiers. -/
def Valid {level : Level} : Formula level → Prop
  | constant _ => True
  | has fields => fields ≠ [] ∧ ∀ name ∈ fields, isIdentifier name = true
  | not operand => operand.Valid
  | parenthesized whole => whole.Valid
  | last part => part.Valid
  | cons part rest => part.Valid ∧ rest.Valid

/-- The value of a formula, given which fields are present. -/
def value {level : Level} (present : List String → Bool) : Formula level → Bool
  | constant value => value
  | has fields => present fields
  | not operand => !operand.value present
  | parenthesized whole => whole.value present
  | last part => part.value present
  | @cons operator part rest => operator.combine (part.value present) (rest.value present)

end Formula

/-- Whether a text is a formula: it has the tokens of the formula, whose questions can be put. -/
def Parses (text : String) (formula : Formula (.chain .disjunction)) : Prop :=
  tokensAfter [] text.toList = some formula.tokens ∧ formula.Valid

/-! ### Unambiguity -/

/-- What may follow a formula of a level: nothing that would make it longer. -/
def Level.Ends : Level → List Token → Prop
  | .operand, _ => True
  | .chain .conjunction, rest => rest.head? ≠ some .conjunction
  | .chain .disjunction, rest => rest.head? ≠ some .conjunction ∧ rest.head? ≠ some .disjunction

namespace Operator
variable {operator : Operator} {rest : List Token}

theorem ends_parts (h : (Level.chain operator).Ends rest) : operator.parts.Ends rest := by
  cases operator with
  | conjunction => trivial
  | disjunction => exact h.1

theorem ends_token (rest : List Token) : operator.parts.Ends (operator.token :: rest) := by
  cases operator with
  | conjunction => trivial
  | disjunction => simp [Operator.token, Level.Ends]

theorem head?_ne_of_ends (h : (Level.chain operator).Ends rest) : rest.head? ≠ some operator.token := by
  cases operator with
  | conjunction => exact h
  | disjunction => exact h.2

end Operator

/-- The tokens of a formula say what it is and where it ends. -/
theorem Formula.tokens_append_inj {level : Level} (formula other : Formula level)
    {rest following : List Token} (hr : level.Ends rest) (hf : level.Ends following)
    (h : formula.tokens ++ rest = other.tokens ++ following) :
    formula = other ∧ rest = following := by
  induction formula generalizing rest following with
  | constant value =>
    cases other with
    | constant value' => cases value <;> cases value' <;> simp [tokens] at h <;> exact ⟨rfl, h⟩
    | has => cases value <;> simp [tokens] at h
    | not => simp [tokens] at h
    | parenthesized => simp [tokens] at h
  | has names =>
    cases other with
    | has names' =>
      have hnames : fieldTokens names ++ .closing :: rest = fieldTokens names' ++ .closing :: following := by
        simpa [tokens] using h
      have hfields := congrArg fields hnames
      rw [fields_fieldTokens, fields_fieldTokens] at hfields
      cases hfields
      exact ⟨rfl, rfl⟩
    | constant value' => cases value' <;> simp [tokens] at h
    | not => simp [tokens] at h
    | parenthesized => simp [tokens] at h
  | not operand ih =>
    cases other with
    | not operand' =>
      obtain ⟨rfl, rfl⟩ := ih operand' trivial trivial (List.cons.inj h).2
      exact ⟨rfl, rfl⟩
    | constant => simp [tokens] at h
    | has => simp [tokens] at h
    | parenthesized => simp [tokens] at h
  | parenthesized whole ih =>
    cases other with
    | parenthesized whole' =>
      have hwhole : whole.tokens ++ .closing :: rest = whole'.tokens ++ .closing :: following := by
        simpa [tokens] using h
      obtain ⟨rfl, hrest⟩ := ih whole' (by simp [Level.Ends]) (by simp [Level.Ends]) hwhole
      exact ⟨rfl, (List.cons.inj hrest).2⟩
    | constant => simp [tokens] at h
    | has => simp [tokens] at h
    | not => simp [tokens] at h
  | @last operator part ih =>
    cases other with
    | last part' =>
      obtain ⟨rfl, rfl⟩ := ih part' (Operator.ends_parts hr) (Operator.ends_parts hf) h
      exact ⟨rfl, rfl⟩
    | cons part' more' =>
      -- One of two equal texts would go on with an operator where the other ends.
      have hpart : part.tokens ++ rest = part'.tokens ++ (operator.token :: (more'.tokens ++ following)) := by
        simpa [tokens] using h
      obtain ⟨-, rfl⟩ := ih part' (Operator.ends_parts hr) (Operator.ends_token _) hpart
      exact absurd rfl (Operator.head?_ne_of_ends hr)
  | @cons operator part more ihpart ihmore =>
    cases other with
    | last part' =>
      have hpart : part.tokens ++ (operator.token :: (more.tokens ++ rest)) = part'.tokens ++ following := by
        simpa [tokens] using h
      obtain ⟨-, rfl⟩ := ihpart part' (Operator.ends_token _) (Operator.ends_parts hf) hpart
      exact absurd rfl (Operator.head?_ne_of_ends hf)
    | cons part' more' =>
      have hpart : part.tokens ++ (operator.token :: (more.tokens ++ rest)) =
          part'.tokens ++ (operator.token :: (more'.tokens ++ following)) := by
        simpa [tokens] using h
      obtain ⟨rfl, hmore⟩ := ihpart part' (Operator.ends_token _) (Operator.ends_token _) hpart
      obtain ⟨rfl, rfl⟩ := ihmore more' hr hf (List.cons.inj hmore).2
      exact ⟨rfl, rfl⟩

/-- **No text is two formulas.** -/
theorem Parses.unique {text : String} {formula other : Formula (.chain .disjunction)}
    (h : Parses text formula) (ho : Parses text other) : formula = other := by
  have htokens : formula.tokens ++ [] = other.tokens ++ [] := by
    rw [List.append_nil, List.append_nil]
    exact Option.some.inj (h.1.symm.trans ho.1)
  exact (formula.tokens_append_inj other (by simp [Level.Ends]) (by simp [Level.Ends]) htokens).1

/-! ### Chains -/

namespace Formula

/-- The neutral value of an operator as one of its parts. -/
def neutral : (operator : Operator) → Formula operator.parts
  | .conjunction => .constant true
  | .disjunction => .last (.constant false)

/-- Parts with an operator between them, or its neutral value. -/
def chain {operator : Operator} : List (Formula operator.parts) → Formula (.chain operator)
  | [] => .last (neutral operator)
  | [part] => .last part
  | part :: next :: rest => .cons part (chain (next :: rest))

variable {operator : Operator} {present : List String → Bool}

theorem tokens_chain {parts : List (Formula operator.parts)} (h : parts ≠ []) :
    (chain parts).tokens = [operator.token].intercalate (parts.map tokens) := by
  induction parts with
  | nil => exact absurd rfl h
  | cons part rest ih =>
    cases rest with
    | nil => simp [chain, tokens]
    | cons next rest =>
      rw [chain, tokens, ih (List.cons_ne_nil _ _)]
      simp

theorem valid_chain {parts : List (Formula operator.parts)} (h : ∀ part ∈ parts, part.Valid) :
    (chain parts).Valid := by
  induction parts with
  | nil => cases operator <;> exact trivial
  | cons part rest ih =>
    have hpart := h part (List.mem_cons_self ..)
    have hrest := ih fun part hm => h part (List.mem_cons_of_mem _ hm)
    cases rest with
    | nil => exact hpart
    | cons next rest => exact ⟨hpart, hrest⟩

theorem value_chain (parts : List (Formula operator.parts)) :
    (chain parts).value present = (parts.map (value present)).foldr operator.combine operator.neutral := by
  induction parts with
  | nil => cases operator <;> rfl
  | cons part rest ih =>
    cases rest with
    | nil => cases operator <;> simp [chain, value, Operator.combine, Operator.neutral]
    | cons next rest =>
      rw [chain, value, ih]
      rfl

/-- A conjunction is true if all its parts are. -/
theorem value_conjunction {parts : List (Formula .operand)} :
    (@chain .conjunction parts).value present = true ↔ ∀ part ∈ parts, part.value present = true := by
  rw [value_chain]
  induction parts with
  | nil => simp [Operator.neutral]
  | cons part rest ih =>
    rw [List.map_cons, List.foldr_cons, List.forall_mem_cons, ← ih]
    exact Bool.and_eq_true_iff

/-- A disjunction is true if one of its parts is. -/
theorem value_disjunction {parts : List (Formula (.chain .conjunction))} :
    (@chain .disjunction parts).value present = true ↔ ∃ part ∈ parts, part.value present = true := by
  rw [value_chain]
  induction parts with
  | nil => simp [Operator.neutral]
  | cons part rest ih =>
    simp only [List.map_cons, List.foldr_cons, List.mem_cons, exists_eq_or_imp, ← ih]
    exact Bool.or_eq_true_iff

end Formula

/-! ### Formulas of conditions -/

open Formula (chain)

section
variable {present : List String → Bool} {clause : List Asked} {clauses : List (List Asked)}

namespace Asked

def formula (asked : Asked) : Formula .operand :=
  if asked.present then .has asked.fields else .not (.has asked.fields)

theorem tokens_formula (asked : Asked) : asked.formula.tokens = asked.tokens := by
  rw [formula, tokens]
  cases asked.present <;> rfl

theorem valid_formula {asked : Asked} (h : asked.Readable) : asked.formula.Valid := by
  rw [formula]
  cases asked.present <;> exact h

theorem value_formula (asked : Asked) :
    asked.formula.value present = true ↔ present asked.fields = asked.present := by
  rw [formula]
  cases asked.present <;> simp [Formula.value]

end Asked

/-- Questions that are all asked. -/
def clauseFormula (clause : List Asked) : Formula .operand :=
  .parenthesized (.last (@chain .conjunction (clause.map Asked.formula)))

/-- Clauses of which one is chosen. -/
def conditionFormula (clauses : List (List Asked)) : Formula (.chain .disjunction) :=
  @chain .disjunction (clauses.map fun clause => @Formula.last .conjunction (clauseFormula clause))

theorem tokens_clauseFormula (hc : clause ≠ []) : (clauseFormula clause).tokens = clauseTokens clause := by
  have htokens : (@chain .conjunction (clause.map Asked.formula)).tokens =
      [Token.conjunction].intercalate (clause.map Asked.tokens) := by
    rw [Formula.tokens_chain (by simpa using hc)]
    simp [Function.comp_def, Asked.tokens_formula, Operator.token]
  rw [clauseTokens, ← htokens]
  rfl

theorem tokens_conditionFormula (hne : clauses ≠ []) (hc : ∀ clause ∈ clauses, clause ≠ []) :
    (conditionFormula clauses).tokens = [Token.disjunction].intercalate (clauses.map clauseTokens) := by
  rw [conditionFormula, Formula.tokens_chain (by simpa using hne), List.map_map]
  have hparts : clauses.map
    (Formula.tokens ∘ fun clause => @Formula.last .conjunction (clauseFormula clause)) =
      clauses.map clauseTokens :=
    List.map_congr_left fun clause hm => tokens_clauseFormula (hc clause hm)
  rw [hparts]
  rfl

/-- The text of a condition is its formula. -/
theorem parses_condition (hne : clauses ≠ []) (hc : ∀ clause ∈ clauses, clause ≠ [])
    (h : ∀ clause ∈ clauses, ∀ asked ∈ clause, asked.Readable) :
    Parses (Condition.anyOf (clauses.map (·.map Asked.literal))).text (conditionFormula clauses) := by
  constructor
  · have hlexes := lexes_condition h []
    rw [List.append_nil, show tokensAfter [] [] = some [] from rfl, Option.map_some,
      List.append_nil] at hlexes
    rw [hlexes, tokens_conditionFormula hne hc]
  · refine Formula.valid_chain fun part hm => ?_
    obtain ⟨clause, hclause, rfl⟩ := List.mem_map.mp hm
    refine Formula.valid_chain fun part hm => ?_
    obtain ⟨asked, hasked, rfl⟩ := List.mem_map.mp hm
    exact Asked.valid_formula (h clause hclause asked hasked)

theorem value_conditionFormula : (conditionFormula clauses).value present = true ↔
    ∃ clause ∈ clauses, ∀ asked ∈ clause, present asked.fields = asked.present := by
  have hclause (clause : List Asked) : (clauseFormula clause).value present = true ↔
      ∀ asked ∈ clause, present asked.fields = asked.present := by
    refine Formula.value_conjunction.trans ?_
    simp only [List.forall_mem_map, Asked.value_formula]
  refine Formula.value_disjunction.trans ?_
  simp only [List.mem_map, exists_exists_and_eq_and, ← hclause]
  rfl

end

/-! ### One of several fields -/

/-- A literal as a question about a single field. -/
def askedOf (literal : Literal) : Asked := ⟨[literal.field], literal.present⟩

theorem literal_askedOf (literal : Literal) : (askedOf literal).literal = literal := by
  rw [askedOf, Asked.literal, String.intercalate_singleton]

theorem readable_askedOf {literal : Literal} (h : isIdentifier literal.field = true) :
    (askedOf literal).Readable :=
  ⟨List.cons_ne_nil _ _, fun _ hm => List.mem_singleton.mp hm ▸ h⟩

theorem mem_oneOfClauses {before fields : List String} {clause : List Literal} :
    clause ∈ Condition.oneOfClauses before fields ↔ ∃ front field back, fields = front ++ field :: back ∧
      clause = ((before ++ front).map (⟨·, false⟩)) ++ ⟨field, true⟩ :: back.map (⟨·, false⟩) := by
  induction fields generalizing before with
  | nil => simp [Condition.oneOfClauses]
  | cons first rest ih =>
    rw [Condition.oneOfClauses, List.mem_cons, ih]
    constructor
    · rintro (rfl | ⟨front, field, back, rfl, rfl⟩)
      · exact ⟨[], first, rest, rfl, by simp⟩
      · exact ⟨first :: front, field, back, rfl, by simp⟩
    · rintro ⟨front, field, back, hf, rfl⟩
      cases front with
      | nil =>
        cases hf
        exact .inl (by simp)
      | cons _ front =>
        cases hf
        exact .inr ⟨front, field, back, rfl, by simp⟩

/-- What holds of the literals of a clause holds of the field that is asked for and of the others. -/
theorem forall_mem_clause {front back : List String} {field : String} {P : Literal → Prop} :
    (∀ literal ∈ front.map (⟨·, false⟩) ++ ⟨field, true⟩ :: back.map (⟨·, false⟩), P literal) ↔
      P ⟨field, true⟩ ∧ ∀ other ∈ front ++ back, P ⟨other, false⟩ := by
  simp only [List.forall_mem_append, List.forall_mem_map, List.forall_mem_cons]
  tauto

/-- Of different fields one is present and none of those around it is, exactly if exactly one is. -/
theorem exists_split_iff {fields : List String} (hd : fields.Nodup) (present : String → Bool) :
    (∃ front field back, fields = front ++ field :: back ∧ present field = true ∧
        ∀ other ∈ front ++ back, present other = false) ↔
      ∃! field, field ∈ fields ∧ present field = true := by
  constructor
  · rintro ⟨front, field, back, rfl, hfield, hothers⟩
    refine ⟨field, ⟨by simp, hfield⟩, fun other ⟨hm, ho⟩ => ?_⟩
    rcases List.mem_append.mp hm with hm | hm
    · cases (hothers other (List.mem_append_left _ hm)).symm.trans ho
    · rcases List.mem_cons.mp hm with rfl | hm
      · rfl
      · cases (hothers other (List.mem_append_right _ hm)).symm.trans ho
  · rintro ⟨field, ⟨hm, hfield⟩, honly⟩
    obtain ⟨front, back, rfl⟩ := List.append_of_mem hm
    refine ⟨front, field, back, rfl, hfield, fun other ho => ?_⟩
    have hne : field ∉ front ++ back := (List.nodup_cons.mp (List.nodup_middle.mp hd)).1
    have hmem : other ∈ front ++ field :: back :=
      (List.mem_append.mp ho).elim (List.mem_append_left _) fun ho =>
        List.mem_append_right _ (List.mem_cons_of_mem _ ho)
    cases hp : present other with
    | false => rfl
    | true => exact absurd (honly other ⟨hmem, hp⟩ ▸ ho) hne

/-- The clauses of one of several fields, as questions. -/
def oneOfAsked (fields : List String) : List (List Asked) :=
  (Condition.oneOfClauses [] fields).map (·.map askedOf)

theorem oneOfAsked_literals (fields : List String) :
    (oneOfAsked fields).map (·.map Asked.literal) = Condition.oneOfClauses [] fields := by
  simp [oneOfAsked, Function.comp_def, literal_askedOf]

theorem forall_mem_oneOfAsked {fields : List String} {P : List Asked → Prop} :
    (∀ clause ∈ oneOfAsked fields, P clause) ↔
      ∀ clause ∈ Condition.oneOfClauses [] fields, P (clause.map askedOf) := List.forall_mem_map

theorem oneOfAsked_readable {fields : List String} (hf : ∀ field ∈ fields, isIdentifier field = true) :
    ∀ clause ∈ oneOfAsked fields, clause ≠ [] ∧ ∀ asked ∈ clause, asked.Readable := by
  rw [forall_mem_oneOfAsked]
  intro clause hm
  obtain ⟨front, field, back, rfl, rfl⟩ := mem_oneOfClauses.mp hm
  refine ⟨by simp, List.forall_mem_map.mpr (forall_mem_clause.mpr ⟨?_, fun other ho => ?_⟩)⟩
  · exact readable_askedOf (hf field (by simp))
  · rw [List.nil_append, List.mem_append] at ho
    exact readable_askedOf (hf other (List.mem_append.mpr (ho.imp_right (List.mem_cons_of_mem _))))

theorem oneOfAsked_holds {fields : List String} {present : List String → Bool} :
    (∃ clause ∈ oneOfAsked fields, ∀ asked ∈ clause, present asked.fields = asked.present) ↔
      ∃ front field back, fields = front ++ field :: back ∧ present [field] = true ∧
        ∀ other ∈ front ++ back, present [other] = false := by
  have hclause (front back : List String) (field : String) :=
    @forall_mem_clause front back field fun literal => present [literal.field] = literal.present
  constructor
  · rintro ⟨_, hm, hall⟩
    obtain ⟨literals, hl, rfl⟩ := List.mem_map.mp hm
    obtain ⟨front, field, back, rfl, rfl⟩ := mem_oneOfClauses.mp hl
    exact ⟨front, field, back, rfl, (hclause front back field).mp fun literal hm =>
      hall _ (List.mem_map_of_mem hm)⟩
  · rintro ⟨front, field, back, rfl, hall⟩
    refine ⟨_, List.mem_map_of_mem (mem_oneOfClauses.mpr ⟨front, field, back, rfl, rfl⟩), ?_⟩
    exact List.forall_mem_map.mpr ((hclause front back field).mpr hall)

/-- The formula of one of several fields. -/
def oneOfFormula : List String → Formula (.chain .disjunction)
  | [] => .last (.last (.constant false))
  | [field] => .last (.last (.has [field]))
  | fields => conditionFormula (oneOfAsked fields)

theorem parses_oneOf {fields : List String} (hf : ∀ field ∈ fields, isIdentifier field = true) :
    Parses (Condition.exactlyOneOf fields).text (oneOfFormula fields) := by
  have hreadable := oneOfAsked_readable hf
  match fields with
  | [] => exact ⟨rfl, trivial⟩
  | [field] =>
    have hfield : (askedOf ⟨field, true⟩).Readable := (hreadable _ (List.mem_singleton.mpr rfl)).2 _ (by simp)
    have hlexes := Asked.lexes hfield []
    rw [literal_askedOf, List.append_nil] at hlexes
    exact ⟨hlexes, hfield⟩
  | first :: second :: rest =>
    have hparses := @parses_condition (oneOfAsked (first :: second :: rest)) (List.cons_ne_nil _ _)
      (fun clause hm => (hreadable clause hm).1) fun clause hm => (hreadable clause hm).2
    rwa [oneOfAsked_literals] at hparses

theorem value_oneOf {fields : List String} (hd : fields.Nodup) (present : List String → Bool) :
    (oneOfFormula fields).value present = true ↔ ∃! field, field ∈ fields ∧ present [field] = true := by
  rw [← exists_split_iff hd fun field => present [field], ← oneOfAsked_holds]
  match fields with
  | [] => simp [oneOfFormula, Formula.value, oneOfAsked, Condition.oneOfClauses]
  | [field] => simp [oneOfFormula, Formula.value, oneOfAsked, Condition.oneOfClauses, askedOf]
  | first :: second :: rest => exact value_conditionFormula

/-- **Exactly one of different fields.** The text is one formula and no other, and the formula is true
exactly if one of the fields is present and no other, whatever else is present. -/
theorem exactlyOneOf_means {fields : List String} (hd : fields.Nodup)
    (hf : ∀ field ∈ fields, isIdentifier field = true) :
    ∃ formula, (∀ other, Parses (Condition.exactlyOneOf fields).text other ↔ other = formula) ∧
      ∀ present : List String → Bool,
        formula.value present = true ↔ ∃! field, field ∈ fields ∧ present [field] = true := by
  refine ⟨oneOfFormula fields, fun other => ⟨fun h => h.unique (parses_oneOf hf), ?_⟩, value_oneOf hd⟩
  rintro rfl
  exact parses_oneOf hf

/-- A group is given by its id or by a reference. -/
theorem group_given_once :
    ∃ formula, Parses
      "(has(self.groupId) && !has(self.groupRef)) || (!has(self.groupId) && has(self.groupRef))" formula ∧
      ∀ present, formula.value present = true ↔ present ["groupId"] ≠ present ["groupRef"] := by
  obtain ⟨formula, hparses, hvalue⟩ := @exactlyOneOf_means ["groupId", "groupRef"] (by decide) (by decide)
  refine ⟨formula, (hparses formula).mpr rfl, fun present => (hvalue present).trans ?_⟩
  cases hid : present ["groupId"] <;> cases href : present ["groupRef"] <;> simp [ExistsUnique, hid, href]

end CrdForge.Crd.Presence
