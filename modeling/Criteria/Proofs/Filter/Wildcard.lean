import Criteria.Proofs.Filter.Conversion
import Criteria.Proofs.Leaf

/-!
This module contains the proof of when an equality whose argument has wildcards is the pattern match that it is taken for:
if and only if the field reads the pattern as it is written. A field without a reader of its own does.
-/

namespace Criteria

namespace Operator

def equality (negated : Bool) : Operator :=
  if negated then notEqual else equal

def patternMatch (negated : Bool) : Operator :=
  if negated then notLike else like

end Operator

/--
What it means that a field takes a text for the value that it spells.
-/
def Field.ReadsAsWritten {R : Type} (field : Field R) (raw : String) : Prop :=
  field.readText? raw = some (.string raw)

namespace Filter

def wildcardPattern (argument : String) : String :=
  String.ofList (argument.toList.map fun c => if c = '*' then '%' else c)

variable {R : Type} {settings : Settings} {registry : Registry R} {field : Field R} {negated : Bool}
  {argument : String}

theorem readsAsWritten_of_reader_eq_none (htype : field.type = .string) (hreader : field.reader = none)
    (raw : String) : field.ReadsAsWritten raw := by
  unfold Field.ReadsAsWritten Field.readText? Field.readByType?
  rw [hreader, htype]

theorem rewrite?_equality :
    rewrite? settings field (.equality negated) [argument] =
      rewriteEquality? settings field negated argument := by
  cases negated <;> rfl

theorem rewriteEquality?_of_wildcard (hsettings : settings.wildcardEquality) (htype : field.type = .string)
    (hwildcard : '*' ∈ argument.toList) :
    rewriteEquality? settings field negated argument =
      some ⟨.patternMatch negated, [.string (wildcardPattern argument)]⟩ := by
  unfold rewriteEquality?
  rw [hsettings, htype, List.contains_iff_mem.mpr hwildcard]
  rfl

theorem convert_equality (hsettings : settings.wildcardEquality) (htype : field.type = .string)
    (hwildcard : '*' ∈ argument.toList) :
    convert settings field (.equality negated) [argument] =
      .ok ⟨.patternMatch negated, [.string (wildcardPattern argument)]⟩ := by
  have hnull : (Operator.equality negated).isNullCheck = false := by cases negated <;> rfl
  apply convert_of_rewrite?_eq_some hnull
  rw [rewrite?_equality, rewriteEquality?_of_wildcard hsettings htype hwildcard]

theorem convert_patternMatch (htype : field.type = .string) (pattern : String) :
    convert settings field (.patternMatch negated) [pattern] = (do
      return ⟨.patternMatch negated, [← convertArgument field pattern]⟩) := by
  have hnull : (Operator.patternMatch negated).isNullCheck = false := by cases negated <;> rfl
  have hrewrite : rewrite? settings field (.patternMatch negated) [pattern] = none := by
    cases negated <;> rfl
  have hcheck : Leaf.checkOperator field (.patternMatch negated) [pattern].length = .ok () := by
    rw [Leaf.checkOperator_eq_ok_iff, htype]
    cases negated <;> exact ⟨rfl, rfl⟩
  rw [convert_of_rewrite?_eq_none hnull hrewrite, hcheck]
  simp only [List.mapM_cons, List.mapM_nil, bind_assoc, pure_bind]
  rfl

theorem convert_equality_eq_iff (hsettings : settings.wildcardEquality) (htype : field.type = .string)
    (hwildcard : '*' ∈ argument.toList) :
    convert settings field (.equality negated) [argument] =
        convert settings field (.patternMatch negated) [wildcardPattern argument] ↔
      field.ReadsAsWritten (wildcardPattern argument) := by
  rw [convert_equality hsettings htype hwildcard, convert_patternMatch htype, eq_comm,
    Except.bind_eq_ok_iff]
  simp only [convertArgument_eq_ok_iff, Except.pure_eq_ok_iff]
  constructor
  · intro h
    rcases h with ⟨value, hread, hconverted⟩
    cases hconverted
    exact hread
  · intro h
    exact ⟨_, h, rfl⟩

theorem isValid_patternMatch (htype : field.type = .string) (pattern : String) :
    Leaf.IsValid field (.patternMatch negated) [.string pattern] := by
  constructor
  · cases negated <;> rfl
  · rw [htype]
    cases negated <;> rfl
  · rw [List.forall_mem_singleton]
    exact htype.symm

theorem toLeaf_equality_eq_iff (hsettings : settings.wildcardEquality) (htype : field.type = .string)
    (hwildcard : '*' ∈ argument.toList) (hfield : field ∈ registry.fields) {symbol symbol' : String}
    (hsymbol : (symbol, .equality negated) ∈ Operator.symbols)
    (hsymbol' : (symbol', .patternMatch negated) ∈ Operator.symbols) :
    Comparison.toLeaf settings registry ⟨field.name, symbol, [argument]⟩ =
        Comparison.toLeaf settings registry ⟨field.name, symbol', [wildcardPattern argument]⟩ ↔
      field.ReadsAsWritten (wildcardPattern argument) := by
  have hequality : Comparison.toLeaf settings registry ⟨field.name, symbol, [argument]⟩ =
      .ok ⟨field, .patternMatch negated, [.string (wildcardPattern argument)]⟩ := by
    rw [Comparison.toLeaf_of_mem hfield hsymbol, convert_equality hsettings htype hwildcard]
    exact Leaf.make_eq_ok_iff.mpr ⟨rfl, isValid_patternMatch htype _⟩
  rw [hequality, Comparison.toLeaf_of_mem hfield hsymbol', convert_patternMatch htype, eq_comm]
  simp only [Except.bind_eq_ok_iff, Except.pure_eq_ok_iff, convertArgument_eq_ok_iff,
    Leaf.make_eq_ok_iff]
  constructor
  · intro h
    rcases h with ⟨_, ⟨value, hread, rfl⟩, hleaf, _⟩
    cases hleaf
    exact hread
  · intro h
    exact ⟨_, ⟨_, h, rfl⟩, rfl, isValid_patternMatch htype _⟩

/--
An equality whose argument has wildcards is the pattern match that has the pattern for its argument if and only if the
field reads the pattern as it is written, as every field does that has no reader of its own. This holds of what the
arguments are converted to, and of the conditions that the texts of the two comparisons stand for.
-/
theorem equality_eq_patternMatch_iff (settings : Settings) (field : Field R) (hsettings : settings.wildcardEquality)
    (htype : field.type = .string) (hwildcard : '*' ∈ argument.toList) (negated : Bool) :
    (convert settings field (.equality negated) [argument] =
        convert settings field (.patternMatch negated) [wildcardPattern argument] ↔
      field.ReadsAsWritten (wildcardPattern argument)) ∧
    (∀ (registry : Registry R) (symbol symbol' : String), field ∈ registry.fields → field.name ≠ "" →
      (∀ c ∈ field.name.toList, isReserved c = false) →
      (symbol, .equality negated) ∈ Operator.symbols →
      (symbol', .patternMatch negated) ∈ Operator.symbols →
      (Condition.ofFilter settings registry
            (Expression.toText (.atom ⟨field.name, symbol, [argument]⟩)) =
          Condition.ofFilter settings registry
            (Expression.toText (.atom ⟨field.name, symbol', [wildcardPattern argument]⟩)) ↔
        field.ReadsAsWritten (wildcardPattern argument))) ∧
    (field.reader = none → field.ReadsAsWritten (wildcardPattern argument)) := by
  refine ⟨convert_equality_eq_iff hsettings htype hwildcard, ?_, ?_⟩
  · intro registry symbol symbol' hfield hne hname hsymbol hsymbol'
    have hne' : field.name.toList ≠ [] := by simpa using hne
    have hwritable : Comparison.IsWritable ⟨field.name, symbol, [argument]⟩ :=
      ⟨hne', hname, isSymbol_of_mem hsymbol, List.cons_ne_nil _ _⟩
    have hwritable' : Comparison.IsWritable ⟨field.name, symbol', [wildcardPattern argument]⟩ :=
      ⟨hne', hname, isSymbol_of_mem hsymbol', List.cons_ne_nil _ _⟩
    rw [Condition.ofFilter_toText_atom hwritable, Condition.ofFilter_toText_atom hwritable',
      ← toLeaf_equality_eq_iff hsettings htype hwildcard hfield hsymbol hsymbol']
    exact (Except.map_injective fun _ _ => Formula.atom.inj).eq_iff
  · intro hreader
    exact readsAsWritten_of_reader_eq_none htype hreader _

theorem equality_eq_patternMatch_iff_title :
    let title : Field (Option Value) := { name := "title", type := .string, read := id }
    let registry : Registry (Option Value) := ⟨[title], by simp⟩
    convert {} title .equal ["Crash*"] = convert {} title .like ["Crash%"] ∧
      Condition.ofFilter {} registry "title!=*search*" =
        Condition.ofFilter {} registry "title=notlike=%search%" := by
  intro title registry
  have hname : ∀ c ∈ title.name.toList, isReserved c = false := isReserved_eq_false_of_any (by decide)
  have hequal : '*' ∈ "Crash*".toList := by decide
  have hnotEqual : '*' ∈ "*search*".toList := by decide
  have htext : "title!=*search*" = Expression.toText (.atom ⟨"title", "!=", ["*search*"]⟩) := by decide
  have htext' : "title=notlike=%search%" =
      Expression.toText (.atom ⟨"title", "=notlike=", [wildcardPattern "*search*"]⟩) := by
    decide
  rcases equality_eq_patternMatch_iff {} title rfl rfl hequal false with ⟨hconvert, _, hreads⟩
  rcases equality_eq_patternMatch_iff {} title rfl rfl hnotEqual true with ⟨_, hfilter, hreads'⟩
  refine ⟨hconvert.mpr (hreads rfl), ?_⟩
  rw [htext, htext']
  exact (hfilter registry "!=" "=notlike=" (List.mem_singleton_self _) (by decide) hname (by decide)
    (by decide)).mpr (hreads' rfl)

theorem not_forall_convert_equality_eq :
    ¬∀ (settings : Settings) (field : Field (Option Value)) (negated : Bool) (argument : String),
      settings.wildcardEquality → field.type = .string → '*' ∈ argument.toList →
      convert settings field (.equality negated) [argument] =
        convert settings field (.patternMatch negated) [wildcardPattern argument] := by
  intro h
  let upper : String → Option Value := fun raw => some (.string (String.ofList (raw.toList.map Char.toUpper)))
  let title : Field (Option Value) := { name := "title", type := .string, read := id, reader := some upper }
  have hwildcard : '*' ∈ "a*".toList := by decide
  have hreads := (convert_equality_eq_iff rfl rfl hwildcard).mp (h {} title false "a*" rfl rfl hwildcard)
  have hne : upper "a%" ≠ some (.string "a%") := by decide
  exact hne hreads

end Filter

end Criteria
