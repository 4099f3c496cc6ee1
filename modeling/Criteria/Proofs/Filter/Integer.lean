import Criteria.Proofs.Filter.Conversion
import Criteria.Proofs.Leaf
import Criteria.Proofs.Text.Numeral

/-!
This module contains the proof that filters which compare a field with integers are exact, from the decimal notation of
the integers to the comparison with a record.
-/

namespace Criteria

namespace Operator

def integerSymbols : List (String × Operator) :=
  [("==", equal), ("!=", notEqual), ("=gt=", greaterThan), ("=ge=", greaterThanOrEqual),
    ("=lt=", lessThan), ("=le=", lessThanOrEqual), ("=in=", isIn), ("=out=", notIn)]

theorem mem_symbols_of_mem_integerSymbols {entry : String × Operator} (h : entry ∈ integerSymbols) :
    entry ∈ symbols := by
  have hall : ∀ entry ∈ integerSymbols, entry ∈ symbols := by decide
  exact hall _ h

def RelatesInt : Operator → Int → List Int → Prop
  | equal, m, [n] => m = n
  | notEqual, m, [n] => m ≠ n
  | greaterThan, m, [n] => m > n
  | greaterThanOrEqual, m, [n] => m ≥ n
  | lessThan, m, [n] => m < n
  | lessThanOrEqual, m, [n] => m ≤ n
  | isIn, m, ns => m ∈ ns
  | notIn, m, ns => m ∉ ns
  | _, _, _ => False

section Relates

variable {value : Number} {m n : Int} {ns : List Int}

theorem compare_ofInt (hvalue : value.toInt? = some m) (h : Number.IsWord n) :
    (Value.number value).compare (.number (.ofInt n)) = some (Ord.compare m n) := by
  rw [Value.compare, Number.compare_of_toInt? hvalue (Number.toInt?_ofInt h)]

theorem isEq_compare_ofInt_iff (hvalue : value.toInt? = some m) (h : Number.IsWord n) :
    ((Value.number value).compare (.number (.ofInt n))).any Ordering.isEq ↔ m = n := by
  rw [compare_ofInt hvalue h, Option.any_some, Ordering.isEq_iff_eq_eq, Int.compare_eq_eq]

theorem isNe_compare_ofInt_iff (hvalue : value.toInt? = some m) (h : Number.IsWord n) :
    ((Value.number value).compare (.number (.ofInt n))).any Ordering.isNe ↔ m ≠ n := by
  rw [compare_ofInt hvalue h, Option.any_some, Ordering.isNe_iff_ne_eq, Int.compare_eq_eq]

theorem relates_isIn_iff (hvalue : value.toInt? = some m) (h : ∀ n ∈ ns, Number.IsWord n) :
    isIn.relates (.number value) (ns.map fun n => .number (.ofInt n)) ↔ m ∈ ns := by
  have hany : isIn.relates (.number value) (ns.map fun n => .number (.ofInt n)) =
      ns.any fun n => ((Value.number value).compare (.number (.ofInt n))).any Ordering.isEq := by
    cases ns <;> simp [relates, Function.comp_def]
  rw [hany, List.any_eq_true]
  constructor
  · intro hmem
    rcases hmem with ⟨n, hn, heq⟩
    rwa [(isEq_compare_ofInt_iff hvalue (h n hn)).mp heq]
  · intro hmem
    exact ⟨m, hmem, (isEq_compare_ofInt_iff hvalue (h m hmem)).mpr rfl⟩

theorem relates_notIn_iff (hne : ns ≠ []) (hvalue : value.toInt? = some m)
    (h : ∀ n ∈ ns, Number.IsWord n) :
    notIn.relates (.number value) (ns.map fun n => .number (.ofInt n)) ↔ m ∉ ns := by
  -- Without operands no relation holds, not even this one.
  have hall : notIn.relates (.number value) (ns.map fun n => .number (.ofInt n)) =
      ns.all fun n => ((Value.number value).compare (.number (.ofInt n))).any Ordering.isNe := by
    cases ns with
    | nil => exact absurd rfl hne
    | cons => simp [relates, Function.comp_def]
  rw [hall, List.all_eq_true]
  constructor
  · intro hmem hm
    exact (isNe_compare_ofInt_iff hvalue (h m hm)).mp (hmem m hm) rfl
  · intro hm n hn
    rw [isNe_compare_ofInt_iff hvalue (h n hn)]
    intro heq
    rw [heq] at hm
    exact hm hn

theorem relates_ofInt_iff {operator : Operator} {symbol : String}
    (hsymbol : (symbol, operator) ∈ integerSymbols) (harity : operator.arity.accepts ns.length)
    (hvalue : value.toInt? = some m) (h : ∀ n ∈ ns, Number.IsWord n) :
    operator.relates (.number value) (ns.map fun n => .number (.ofInt n)) ↔
      operator.RelatesInt m ns := by
  cases operator with
  | isIn => exact relates_isIn_iff hvalue h
  | notIn =>
    apply relates_notIn_iff _ hvalue h
    simpa [arity, Arity.accepts, Nat.one_le_iff_ne_zero] using harity
  | like | notLike | isNull | notNull | between => exact absurd hsymbol (by simp [integerSymbols])
  | _ =>
    -- The other operators compare with a single integer.
    rcases List.length_eq_one_iff.mp (of_decide_eq_true harity) with ⟨n, rfl⟩
    have hcompare := compare_ofInt hvalue (h n List.mem_cons_self)
    simp [relates, hcompare, RelatesInt, Int.compare_eq_gt, Int.compare_eq_lt, Int.isGE_compare,
      Int.isLE_compare]

end Relates

end Operator

namespace Filter

variable {R : Type} {settings : Settings} {field : Field R}

theorem isReserved_eq_false_of_mem_toString {n : Int} {c : Char} (hc : c ∈ (toString n).toList) :
    isReserved c = false := by
  rcases Text.mem_toList_toString hc with rfl | hdigit
  · decide
  · apply isReserved_eq_false_of_isAlphanum
    rw [Char.isAlphanum, hdigit, Bool.or_true]

theorem writeArgument_toString (n : Int) : writeArgument (toString n) = (toString n).toList := by
  have hne : (toString n).toList.isEmpty = false :=
    List.isEmpty_eq_false_iff.mpr (Text.toList_toString_ne_nil n)
  have hany : (toString n).toList.any isReserved = false := by
    rw [List.any_eq_false]
    intro c hc
    rw [isReserved_eq_false_of_mem_toString hc]
    exact Bool.false_ne_true
  unfold writeArgument
  dsimp only
  rw [hne, hany]
  rfl

theorem rewriteEquality?_toString (htype : field.type = .number) (negated : Bool) (n : Int) :
    rewriteEquality? settings field negated (toString n) = none := by
  -- Every character of a numeral is a digit or the sign.
  have hnull : decide (toString n = "null") = false := by
    rw [decide_eq_false_iff_not]
    intro heq
    have hletter : 'n' ∈ (toString n).toList := by
      rw [heq]
      decide
    exact absurd (Text.mem_toList_toString hletter) (by decide)
  unfold rewriteEquality?
  rw [htype, hnull]
  simp

theorem rewrite?_toString (htype : field.type = .number) (operator : Operator) (integers : List Int) :
    rewrite? settings field operator (integers.map toString) = none := by
  rcases integers with _ | ⟨n, _ | ⟨second, others⟩⟩
  · cases operator <;> rfl
  · cases operator <;> first | rfl | exact rewriteEquality?_toString htype _ n
  · cases operator <;> rfl

theorem convertArgument_toString (htype : field.type = .number) (hreader : field.reader = none) {n : Int}
    (h : Number.IsWord n) :
    convertArgument field (toString n) = .ok (.number (.ofInt n)) := by
  have hread : field.readText? (toString n) = some (.number (.ofInt n)) := by
    unfold Field.readText? Field.readByType?
    rw [hreader]
    dsimp only
    rw [htype]
    dsimp only
    rw [Number.read?_toString h]
    rfl
  unfold convertArgument
  rw [hread]

end Filter

structure IntegerComparison where
  symbol : String
  operator : Operator
  integers : List Int
  mem_symbols : (symbol, operator) ∈ Operator.integerSymbols
  ne_nil : integers ≠ []
  single : operator = .isIn ∨ operator = .notIn ∨ integers.length = 1
  isWord : ∀ n ∈ integers, Number.IsWord n

namespace IntegerComparison

variable {R : Type} {settings : Settings} {registry : Registry R} {field : Field R}

def text (comparison : IntegerComparison) (field : String) : String :=
  field ++ comparison.symbol ++
    match comparison.integers with
    | [n] => toString n
    | integers => "(" ++ ",".intercalate (integers.map toString) ++ ")"

def parsed (comparison : IntegerComparison) (field : String) : Filter.Comparison :=
  ⟨field, comparison.symbol, comparison.integers.map toString⟩

def leaf (comparison : IntegerComparison) (field : Field R) : Leaf R :=
  ⟨field, comparison.operator, comparison.integers.map fun n => .number (.ofInt n)⟩

theorem accepts (comparison : IntegerComparison) :
    comparison.operator.arity.accepts comparison.integers.length := by
  have hpos : 1 ≤ comparison.integers.length := List.length_pos_iff.mpr comparison.ne_nil
  have hone : ∀ entry ∈ Operator.integerSymbols, entry.2.arity.accepts 1 := by decide
  rcases comparison.single with h | h | h
  · rw [h]
    exact decide_eq_true hpos
  · rw [h]
    exact decide_eq_true hpos
  · rw [h]
    exact hone _ comparison.mem_symbols

theorem toText_parsed (comparison : IntegerComparison) (field : String) :
    Filter.Expression.toText (.atom (comparison.parsed field)) = comparison.text field := by
  have harguments : ∀ integers : List Int, Filter.writeArguments (integers.map toString) =
      (match integers with
        | [n] => toString n
        | integers => "(" ++ ",".intercalate (integers.map toString) ++ ")").toList := by
    intro integers
    have hmap : (integers.map toString).map Filter.writeArgument =
        (integers.map toString).map String.toList := by
      rw [List.map_map, List.map_map]
      apply List.map_congr_left
      intro n _
      exact Filter.writeArgument_toString n
    rcases integers with _ | ⟨n, _ | ⟨second, others⟩⟩
    · rfl
    · exact Filter.writeArgument_toString n
    · dsimp only
      rw [String.toList_append, String.toList_append, String.toList_intercalate, ← hmap]
      rfl
  rw [← String.toList_inj]
  unfold Filter.Expression.toText text
  rw [Filter.write_atom, String.toList_ofList, String.toList_append, String.toList_append, ← harguments]
  rfl

theorem isValid_leaf (comparison : IntegerComparison) (htype : field.type = .number) :
    Leaf.IsValid field comparison.operator
      (comparison.integers.map fun n => .number (.ofInt n)) := by
  have hclass : ∀ entry ∈ Operator.integerSymbols, entry.2.valueClass.admits .number := by decide
  constructor
  · rw [List.length_map]
    exact comparison.accepts
  · rw [htype]
    exact hclass _ comparison.mem_symbols
  · rw [List.forall_mem_map]
    intro n _
    exact htype.symm

theorem convert_toString (comparison : IntegerComparison) (htype : field.type = .number)
    (hreader : field.reader = none) :
    Filter.convert settings field comparison.operator (comparison.integers.map toString) =
      .ok ⟨comparison.operator, comparison.integers.map fun n => .number (.ofInt n)⟩ := by
  have hnull : ∀ entry ∈ Operator.integerSymbols, entry.2.isNullCheck = false := by decide
  have hvalid := isValid_leaf comparison htype
  have hcheck : Leaf.checkOperator field comparison.operator
      (comparison.integers.map toString).length = .ok () := by
    rw [Leaf.checkOperator_eq_ok_iff]
    exact ⟨by simpa using hvalid.arity, hvalid.valueClass⟩
  have hoperands : (comparison.integers.map toString).mapM (Filter.convertArgument field) =
      .ok (comparison.integers.map fun n => .number (.ofInt n)) := by
    rw [Except.mapM_eq_ok_iff, List.forall₂_map_left_iff, List.forall₂_map_right_iff,
      List.forall₂_same]
    intro n hn
    exact Filter.convertArgument_toString htype hreader (comparison.isWord n hn)
  have hrewrite : Filter.rewrite? settings field comparison.operator
      (comparison.integers.map toString) = none :=
    Filter.rewrite?_toString htype _ _
  rw [Filter.convert_of_rewrite?_eq_none (hnull _ comparison.mem_symbols) hrewrite, hcheck, hoperands]
  rfl

theorem toLeaf_parsed (comparison : IntegerComparison) (hfield : field ∈ registry.fields)
    (htype : field.type = .number) (hreader : field.reader = none) :
    (comparison.parsed field.name).toLeaf settings registry = .ok (comparison.leaf field) := by
  have hleaf : comparison.leaf field = ⟨field, comparison.operator, _⟩ := rfl
  unfold parsed
  rw [Filter.Comparison.toLeaf_of_mem hfield
      (Operator.mem_symbols_of_mem_integerSymbols comparison.mem_symbols),
    convert_toString comparison htype hreader]
  exact Leaf.make_eq_ok_iff.mpr ⟨hleaf, isValid_leaf comparison htype⟩

theorem isMatch_leaf_iff (comparison : IntegerComparison) {record : R} {value : Number} {m : Int}
    (hread : field.read record = some (.number value)) (hvalue : value.toInt? = some m) :
    Condition.isMatch (.atom (comparison.leaf field)) record ↔
      comparison.operator.RelatesInt m comparison.integers := by
  have hevaluate : ∀ entry ∈ Operator.integerSymbols, ∀ value operands,
      entry.2.evaluate (some value) operands = entry.2.relates value operands := by
    simp [Operator.integerSymbols, Operator.evaluate]
  rw [← Operator.relates_ofInt_iff comparison.mem_symbols comparison.accepts hvalue comparison.isWord]
  unfold Condition.isMatch Leaf.isMatch leaf
  rw [Formula.holds_atom, hread, hevaluate _ comparison.mem_symbols]

theorem ofFilter_text_eq_ok (comparison : IntegerComparison) (hfield : field ∈ registry.fields)
    (htype : field.type = .number) (hreader : field.reader = none) (hne : field.name.toList ≠ [])
    (hname : ∀ c ∈ field.name.toList, Filter.isReserved c = false) :
    Condition.ofFilter settings registry (comparison.text field.name) =
      .ok (.atom (comparison.leaf field)) := by
  have hwritable : (comparison.parsed field.name).IsWritable :=
    ⟨hne, hname,
      Filter.isSymbol_of_mem (Operator.mem_symbols_of_mem_integerSymbols comparison.mem_symbols),
      by simpa [parsed] using comparison.ne_nil⟩
  rw [← toText_parsed, Condition.ofFilter_toText_atom hwritable,
    toLeaf_parsed comparison hfield htype hreader]
  rfl

/--
A field of numbers can be compared with integers in a filter text, and the comparison is exact. Every integer becomes an
operand that is this integer, a signed word if there is one. A record whose field holds an integer satisfies the
condition if and only if this integer stands in the relation of the operator to the integers of the text.
-/
theorem ofFilter_text_and_isMatch_iff (settings : Settings) {registry : Registry R} {field : Field R}
    (hfield : field ∈ registry.fields) (htype : field.type = .number) (hreader : field.reader = none)
    (hne : field.name ≠ "") (hname : ∀ c ∈ field.name.toList, Filter.isReserved c = false)
    (comparison : IntegerComparison) :
    ∃ operands : List Number,
      Condition.ofFilter settings registry (comparison.text field.name) =
        .ok (.atom ⟨field, comparison.operator, operands.map .number⟩) ∧
      List.Forall₂ (fun operand n => operand.toInt? = some n ∧
        ((∃ word, operand = .signed word) ↔ n < 0x8000000000000000)) operands comparison.integers ∧
      ∀ record value m, field.read record = some (.number value) → value.toInt? = some m →
        (Condition.isMatch (.atom ⟨field, comparison.operator, operands.map .number⟩) record ↔
          comparison.operator.RelatesInt m comparison.integers) := by
  have hoperands : comparison.leaf field =
      ⟨field, comparison.operator, (comparison.integers.map Number.ofInt).map .number⟩ := by
    rw [List.map_map]
    rfl
  refine ⟨comparison.integers.map Number.ofInt, ?_, ?_, ?_⟩
  · rw [← hoperands]
    exact ofFilter_text_eq_ok comparison hfield htype hreader (by simpa using hne) hname
  · rw [List.forall₂_map_left_iff, List.forall₂_same]
    intro n hn
    have hword := comparison.isWord n hn
    exact ⟨Number.toInt?_ofInt hword, Number.exists_ofInt_eq_signed_iff hword⟩
  · intro record value m hread hvalue
    rw [← hoperands]
    exact isMatch_leaf_iff comparison hread hvalue

theorem ofFilter_text_and_isMatch_iff_id :
    let field : Field (Option Value) := { name := "id", type := .number, read := id }
    let registry : Registry (Option Value) := ⟨[field], by simp⟩
    let comparison : IntegerComparison :=
      ⟨"=in=", .isIn, [-1, 9223372036854775808], by decide, by decide, by decide, by decide⟩
    (field ∈ registry.fields ∧ field.type = .number ∧ field.reader = none ∧ field.name ≠ "" ∧
      ∀ c ∈ field.name.toList, Filter.isReserved c = false) ∧
    comparison.text field.name = "id=in=(-1,9223372036854775808)" ∧
    ∃ operands : List Number,
      Condition.ofFilter {} registry (comparison.text field.name) =
        .ok (.atom ⟨field, .isIn, operands.map .number⟩) ∧
      List.Forall₂ (fun operand n => operand.toInt? = some n ∧
        ((∃ word, operand = .signed word) ↔ n < 0x8000000000000000)) operands comparison.integers ∧
      Condition.isMatch (.atom ⟨field, .isIn, operands.map .number⟩)
        (some (.number (.unsigned 9223372036854775808))) ∧
      ¬Condition.isMatch (.atom ⟨field, .isIn, operands.map .number⟩)
        (some (.number (.unsigned 18446744073709551615))) := by
  intro field registry comparison
  have hfield : field ∈ registry.fields := List.mem_singleton_self field
  have hname : ∀ c ∈ field.name.toList, Filter.isReserved c = false :=
    Filter.isReserved_eq_false_of_any (by decide)
  have hne : field.name ≠ "" := by decide
  rcases ofFilter_text_and_isMatch_iff {} hfield rfl rfl hne hname comparison with
    ⟨operands, hcondition, hoperands, hmatch⟩
  refine ⟨⟨hfield, rfl, rfl, hne, hname⟩, by decide, operands, hcondition, hoperands, ?_, ?_⟩
  · apply (hmatch _ _ 9223372036854775808 rfl (by decide)).mpr
    simp [comparison, Operator.RelatesInt]
  · rw [hmatch _ _ 18446744073709551615 rfl (by decide)]
    simp [comparison, Operator.RelatesInt]

end IntegerComparison

end Criteria
