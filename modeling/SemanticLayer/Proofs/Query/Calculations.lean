import SemanticLayer.Proofs.Calculation.Variables
import SemanticLayer.Proofs.Query.Grouping
/-!
The values of calculated measures: each expression is read in the part of its row that stands before it.
-/
namespace SemanticLayer

/-! ## Values of expressions -/

/-- What counts as a number: numbers, the decimal texts of them, and truth values as 0 and 1. -/
inductive Json.Reads : Json → Float → Prop
  | int (n : Int) : Reads (.int n) (floatOfInt n)
  | float (x : Float) : Reads (.float x) x
  | text (s : String) (x : Float) : Decimal.readFloat? (Text.trim s.toList) = some x → Reads (.str s) x
  | truth (b : Bool) : Reads (.bool b) (if b then 1.0 else 0.0)

theorem Json.number?_eq_some_iff {v : Json} {x : Float} : v.number? = some x ↔ v.Reads x := by
  constructor
  · intro h
    cases v with
    | null => simp [number?, numeral?] at h
    | bool b => exact Option.some.inj h ▸ .truth b
    | int n => exact Option.some.inj h ▸ .int n
    | float y => exact Option.some.inj h ▸ .float y
    | str s => exact .text s x h
    | arr items => simp [number?, numeral?] at h
    | obj members => simp [number?, numeral?] at h
  · rintro (n | _ | ⟨s, _, h⟩ | b)
    · rfl
    · rfl
    · exact h
    · rfl

/-- What a row has under a name, as a number. -/
def Record.Reads (visible : Record) (name : String) (x : Float) : Prop :=
  ∃ v, visible.get? name = some v ∧ v.Reads x

theorem Record.bind_number?_eq_some_iff {visible : Record} {name : String} {x : Float} :
    (visible.get? name).bind Json.number? = some x ↔ visible.Reads name x := by
  simp [Reads, Option.bind_eq_some_iff, Json.number?_eq_some_iff]

namespace Calculation.Expression

/-- The value of an expression where each occurrence of a variable is read. -/
inductive Has (reads : String → Float → Prop) : Expression → Float → Prop
  | number (x : Float) : Has reads (.number x) x
  | variable {name : String} {x : Float} : reads name x → Has reads (.variable name) x
  | negate {e : Expression} {x : Float} : Has reads e x → Has reads (.negate e) (-x)
  | binary (operator : Operator) {left right : Expression} {x y : Float} :
      Has reads left x → Has reads right y →
      Has reads (.binary operator left right) (operator.apply x y)

variable {lookup : String → Option Float} {e : Expression}

theorem eval_eq_some_iff {x : Float} :
    e.eval lookup = some x ↔ e.Has (fun name y => lookup name = some y) x := by
  constructor
  · intro h
    induction e generalizing x with
    | number y => exact Option.some.inj h ▸ .number y
    | «variable» name => exact .variable h
    | negate e ih =>
        obtain ⟨y, hy, rfl⟩ := Option.map_eq_some_iff.1 h
        exact .negate (ih hy)
    | binary operator left right ihleft ihright =>
        obtain ⟨y, hy, h⟩ := Option.bind_eq_some_iff.1 h
        obtain ⟨z, hz, h⟩ := Option.bind_eq_some_iff.1 h
        exact Option.some.inj h ▸ .binary operator (ihleft hy) (ihright hz)
  · intro h
    induction h with
    | number x => rfl
    | «variable» h => exact h
    | negate _ ih => simp [eval, ih]
    | binary operator _ _ ihleft ihright => simp [eval, ihleft, ihright]

end Calculation.Expression

/-! ## Values of calculated measures -/

/-- The value of a calculated measure in a row of which `visible` is there. -/
inductive CalculatedColumn.Yields (c : CalculatedColumn) (visible : Record) : Json → Prop
  | unread : c.expression = none → Yields c visible (.int 0)
  | missing {e : Calculation.Expression} {name : String} : c.expression = some e →
      name ∈ e.occurrences → visible.get? name = none → Yields c visible (.int 0)
  | unnumbered {e : Calculation.Expression} {name : String} {v : Json} : c.expression = some e →
      name ∈ e.occurrences → visible.get? name = some v → (∀ x, ¬v.Reads x) →
      Yields c visible (.int 0)
  | infinite {e : Calculation.Expression} {x : Float} : c.expression = some e →
      e.Has visible.Reads x → x.isFinite = false → Yields c visible (.int 0)
  | finite {e : Calculation.Expression} {x : Float} : c.expression = some e →
      e.Has visible.Reads x → x.isFinite = true → Yields c visible (.float x)

namespace CalculatedColumn

variable {c : CalculatedColumn} {visible : Record} {v : Json}

theorem eval_eq_some_iff {e : Calculation.Expression} {x : Float} :
    e.eval (fun name => (visible.get? name).bind Json.number?) = some x ↔ e.Has visible.Reads x := by
  simp only [Calculation.Expression.eval_eq_some_iff, Record.bind_number?_eq_some_iff]

theorem yields_evaluate (c : CalculatedColumn) (visible : Record) :
    c.Yields visible (ResultPlan.evaluate c visible) := by
  unfold ResultPlan.evaluate
  cases hexpression : c.expression with
  | none => exact .unread hexpression
  | some e =>
      rw [Option.bind_some]
      cases heval : e.eval (fun name => (visible.get? name).bind Json.number?) with
      | none =>
          obtain ⟨name, hname, hnone⟩ := Calculation.Expression.eval_eq_none_iff.1 heval
          cases hget : visible.get? name with
          | none => exact .missing hexpression hname hget
          | some v =>
              refine .unnumbered hexpression hname hget fun x hx => ?_
              rw [hget, Option.bind_some, Json.number?_eq_some_iff.2 hx] at hnone
              simp at hnone
      | some x =>
          have hvalue := eval_eq_some_iff.1 heval
          cases hfinite : x.isFinite with
          | false => simpa [hfinite] using .infinite hexpression hvalue hfinite
          | true => simpa [hfinite] using .finite hexpression hvalue hfinite

theorem yields_iff : c.Yields visible v ↔ v = ResultPlan.evaluate c visible := by
  constructor
  · have hmissing {e : Calculation.Expression} {name : String} (hexpression : c.expression = some e)
        (hname : name ∈ e.occurrences) (hnone : (visible.get? name).bind Json.number? = none) :
        Json.int 0 = ResultPlan.evaluate c visible := by
      have heval : e.eval (fun name => (visible.get? name).bind Json.number?) = none :=
        Calculation.Expression.eval_eq_none_iff.2 ⟨name, hname, hnone⟩
      simp [ResultPlan.evaluate, hexpression, heval]
    rintro (hexpression | ⟨hexpression, hname, hget⟩ | ⟨hexpression, hname, hget, hv⟩ |
      ⟨hexpression, hvalue, hfinite⟩ | ⟨hexpression, hvalue, hfinite⟩)
    · simp [ResultPlan.evaluate, hexpression]
    · exact hmissing hexpression hname (by simp [hget])
    · refine hmissing hexpression hname ?_
      rw [hget, Option.bind_some, Option.eq_none_iff_forall_ne_some]
      intro x hx
      exact hv x (Json.number?_eq_some_iff.1 hx)
    · simp [ResultPlan.evaluate, hexpression, eval_eq_some_iff.2 hvalue, hfinite]
    · simp [ResultPlan.evaluate, hexpression, eval_eq_some_iff.2 hvalue, hfinite]
  · rintro rfl
    exact yields_evaluate c visible

end CalculatedColumn

def Json.IsNumber (v : Json) : Prop :=
  (∃ n, v = .int n) ∨ ∃ x, v = .float x ∧ x.isFinite = true

theorem CalculatedColumn.Yields.isNumber {c : CalculatedColumn} {visible : Record} {v : Json}
    (h : c.Yields visible v) : v.IsNumber := by
  cases h with
  | unread _ => exact .inl ⟨0, rfl⟩
  | missing _ _ _ => exact .inl ⟨0, rfl⟩
  | unnumbered _ _ _ _ => exact .inl ⟨0, rfl⟩
  | infinite _ _ _ => exact .inl ⟨0, rfl⟩
  | finite _ _ hfinite => exact .inr ⟨_, rfl, hfinite⟩

theorem Record.get?_eq_none_of_not_mem {r : Record} {key : String} (h : key ∉ r.keys) :
    r.get? key = none := by
  induction r with
  | nil => rfl
  | cons e r ih =>
      obtain ⟨hne, hr⟩ : key ≠ e.1 ∧ key ∉ Record.keys r := by simpa [Record.keys] using h
      rw [Record.get?_cons, if_neg hne, ih hr]

namespace ResultPlan

variable {plan plan' : ResultPlan} {c : CalculatedColumn} {row visible : Record} {i : Nat}

theorem take_calculations (calculated : List CalculatedColumn) (visible : Record) (i : Nat) :
    (calculations calculated visible).take i = calculations (calculated.take i) visible := by
  induction calculated generalizing visible i with
  | nil => simp [calculations]
  | cons c calculated ih =>
      cases i with
      | zero => rfl
      | succ i => exact congrArg (_ :: ·) (ih _ i)

theorem getElem?_calculations {calculated : List CalculatedColumn} (h : calculated[i]? = some c) :
    (calculations calculated visible)[i]? =
      some (c.key, evaluate c (visible ++ (calculations calculated visible).take i)) := by
  induction calculated generalizing visible i with
  | nil => simp at h
  | cons d calculated ih =>
      cases i with
      | zero =>
          obtain rfl : d = c := by simpa using h
          simp [calculations]
      | succ i =>
          rw [calculations, List.getElem?_cons_succ, ih (by simpa using h)]
          simp

theorem length_answered (plan : ResultPlan) (row : Record) :
    (plan.answered row).length = plan.outputs.length := by
  simp [answered]

theorem Distinct.take_shapeRow (h : plan.Distinct) (row : Record) (i : Nat) :
    (plan.shapeRow row).take (plan.outputs.length + i) =
      plan.answered row ++ calculations (plan.calculated.take i) (plan.answered row) := by
  rw [h.shapeRow_eq_append, ← length_answered plan row, List.take_length_add_append,
    take_calculations]

theorem Distinct.getElem?_shapeRow (h : plan.Distinct) (row : Record)
    (hc : plan.calculated[i]? = some c) :
    (plan.shapeRow row)[plan.outputs.length + i]? =
      some (c.key, evaluate c ((plan.shapeRow row).take (plan.outputs.length + i))) := by
  rw [h.take_shapeRow, h.shapeRow_eq_append, ← length_answered plan row,
    List.getElem?_append_right (Nat.le_add_right _ _), Nat.add_sub_cancel_left,
    getElem?_calculations hc, take_calculations]

theorem Distinct.keys_shapeRow (h : plan.Distinct) (row : Record) :
    Record.keys (plan.shapeRow row) =
      plan.outputs.map OutputColumn.key ++ plan.calculated.map CalculatedColumn.key := by
  rw [h.shapeRow_eq_append, Record.keys_append, keys_calculations]
  simp [answered, Record.keys, Function.comp_def]

/-- A name that is given later in a row is not there before. -/
theorem Distinct.get?_take_shapeRow (h : plan.Distinct) (row : Record) {name : String}
    (hname : name ∈ (plan.calculated.map CalculatedColumn.key).drop i) :
    Record.get? ((plan.shapeRow row).take (plan.outputs.length + i)) name = none := by
  have hkeys : Record.keys ((plan.shapeRow row).take (plan.outputs.length + i)) =
      plan.outputs.map OutputColumn.key ++ (plan.calculated.map CalculatedColumn.key).take i := by
    rw [h.take_shapeRow, Record.keys_append, keys_calculations, List.map_take]
    simp [answered, Record.keys, Function.comp_def]
  have hnodup := h.keys
  rw [← List.take_append_drop i (plan.calculated.map CalculatedColumn.key), ← List.append_assoc,
    ← hkeys] at hnodup
  apply Record.get?_eq_none_of_not_mem
  intro hmem
  exact (List.nodup_append.1 hnodup).2.2 name hmem name hname rfl

/-- Calculations that stand behind others do not matter to these. -/
theorem Distinct.take_shapeRow_congr (h : plan.Distinct) (h' : plan'.Distinct)
    (houtputs : plan'.outputs = plan.outputs)
    (hcalculated : plan'.calculated.take i = plan.calculated.take i) (row : Record) :
    (plan'.shapeRow row).take (plan.outputs.length + i) =
      (plan.shapeRow row).take (plan.outputs.length + i) := by
  have hanswered : plan'.answered row = plan.answered row := by
    rw [answered, answered, houtputs]
  rw [h.take_shapeRow, ← houtputs, h'.take_shapeRow, hcalculated, hanswered]

end ResultPlan

/-! ## Requested calculations -/

def Request.calculations (request : Request) : List MeasureRequest :=
  request.measures.filter fun m => m.kind = .calculated

/-- Each measure is calculated in one way. -/
theorem calculates_rightUnique : Relator.RightUnique MeasureRequest.Calculates := by
  rintro m ⟨key, text, expression⟩ ⟨key', text', expression'⟩ ⟨hkey, htext, hexpression⟩
    ⟨hkey', htext', hexpression'⟩
  dsimp only at *
  subst htext htext' hexpression hexpression'
  obtain rfl : key = key' := Option.some.inj (hkey.symm.trans hkey')
  rfl

/-- Whether a plan gives the calculated measures of a request their values. What stands before one in its
row is all that it sees: the measure itself and those behind it have no value for it. -/
structure ResultPlan.Calculates (plan : ResultPlan) (request : Request) : Prop where
  columns : List.Forall₂ MeasureRequest.Calculates request.calculations plan.calculated
  keys : ∀ row, Record.keys (plan.shapeRow row) = request.answeredKeys ++ request.calculatedKeys
  answered : ∀ row, (plan.shapeRow row).take request.answeredKeys.length =
    plan.outputs.map fun o => (o.key, (row.get? o.column).getD .null)
  values : ∀ row i c, plan.calculated[i]? = some c → ∃ v,
    (plan.shapeRow row)[request.answeredKeys.length + i]? = some (c.key, v) ∧
    (∀ w, c.Yields ((plan.shapeRow row).take (request.answeredKeys.length + i)) w ↔ w = v) ∧
    v.IsNumber ∧
    ((∃ e, c.expression = some e ∧ ∃ name ∈ e.occurrences, name ∈ request.calculatedKeys.drop i) →
      v = .int 0)

namespace Source

variable {source : Source} {request : Request} {resolved : List ResolvedMeasure}
  {orders : List Select.Order} {limits : QueryLimits} {db : Database} {compiled : CompiledQuery}

theorem forall₂_calculations {requests : List MeasureRequest}
    (h : List.Forall₂ (fun m r => source.resolveMeasure m = .ok r) requests resolved) :
    List.Forall₂ MeasureRequest.Calculates (requests.filter fun m => m.kind = .calculated)
      (resolved.filterMap ResolvedMeasure.calculation?) := by
  induction h with
  | nil => exact .nil
  | @cons m r requests resolved hm _ ih =>
      cases r with
      | aggregate key measure aggregation =>
          obtain ⟨hkind, -⟩ := resolveMeasure_eq_aggregate hm
          rw [List.filter_cons_of_neg (by simp [hkind])]
          exact ih
      | calculated c =>
          obtain ⟨hkind, hcalculates⟩ := resolveMeasure_eq_calculated hm
          rw [List.filter_cons_of_pos (by simpa using hkind)]
          exact .cons hcalculates ih

/-- The columns of a plan follow from the keys they answer. -/
theorem Compiles.outputs_eq (h : source.Compiles request resolved orders) :
    (source.requestPlan request resolved).outputs = List.zipWith OutputColumn.mk
      ((List.range' 0 request.dimensions.length).map (fun i => "dim_" ++ toString i) ++
        (List.range' 0 (request.answeredKeys.length - request.dimensions.length)).map fun i =>
          "measure_" ++ toString i)
      request.answeredKeys := by
  have hlength : (aggregateColumns 0 resolved).length =
      request.answeredKeys.length - request.dimensions.length := by
    have hkeys := congrArg List.length h.map_key
    have hdimensions : (source.dimensionColumns 0 request.dimensions).map SelectedColumn.key =
        request.dimensions := map_key_dimensionColumns h.known
    have hcount := congrArg List.length hdimensions
    simp only [requestColumns, List.length_map, List.length_append] at hkeys hcount
    omega
  have hnames : (source.requestColumns request resolved).map SelectedColumn.name =
      (List.range' 0 request.dimensions.length).map (fun i => "dim_" ++ toString i) ++
        (List.range' 0 (request.answeredKeys.length - request.dimensions.length)).map fun i =>
          "measure_" ++ toString i := by
    rw [requestColumns, List.map_append, map_name_dimensionColumns h.known, map_name_aggregateColumns,
      hlength]
  rw [← hnames, ← h.map_key, List.zipWith_map, List.zipWith_self]
  rfl

theorem Compiles.calculates (h : source.Compiles request resolved orders) :
    (source.requestPlan request resolved).Calculates request := by
  have hdistinct := h.plan_distinct
  have houtputs : (source.requestPlan request resolved).outputs.map OutputColumn.key =
      request.answeredKeys := by
    simpa [requestPlan, Function.comp_def] using h.map_key
  have hcalculated : (source.requestPlan request resolved).calculated.map CalculatedColumn.key =
      request.calculatedKeys := h.calculatedKeys
  constructor
  · exact forall₂_calculations h.resolves
  · intro row
    rw [hdistinct.keys_shapeRow, houtputs, hcalculated]
  · intro row
    rw [← houtputs, List.length_map]
    exact (hdistinct.take_shapeRow row 0).trans (List.append_nil _)
  · intro row i c hc
    rw [← houtputs, List.length_map]
    refine ⟨_, hdistinct.getElem?_shapeRow row hc, fun w => CalculatedColumn.yields_iff,
      (CalculatedColumn.yields_evaluate c _).isNumber, ?_⟩
    rintro ⟨e, hexpression, name, hname, hlater⟩
    rw [← hcalculated] at hlater
    have hyields := CalculatedColumn.Yields.missing hexpression hname
      (hdistinct.get?_take_shapeRow row hlater)
    exact (CalculatedColumn.yields_iff.1 hyields).symm

theorem compile_calculates (hcompile : source.compile limits db request = .ok compiled) :
    compiled.plan.Calculates request ∧
    ∀ (source' : Source) limits' db' request' compiled',
      source'.compile limits' db' request' = .ok compiled' →
      request'.dimensions = request.dimensions → request'.answeredKeys = request.answeredKeys →
      ∀ i, request'.calculations.take i = request.calculations.take i →
      ∀ row, (compiled'.plan.shapeRow row).take (request.answeredKeys.length + i) =
        (compiled.plan.shapeRow row).take (request.answeredKeys.length + i) := by
  obtain ⟨resolved, orders, h, rfl⟩ := compile_eq_ok_iff.1 hcompile
  refine ⟨h.calculates, ?_⟩
  intro source' limits' db' request' compiled' hcompile' hdimensions hanswered i hcalculations row
  obtain ⟨resolved', orders', h', rfl⟩ := compile_eq_ok_iff.1 hcompile'
  have hlength : request.answeredKeys.length = (source.requestPlan request resolved).outputs.length := by
    rw [← h.map_key, requestPlan, List.length_map, List.length_map]
  have htake := List.forall₂_take i h.calculates.columns
  have htake' := List.forall₂_take i h'.calculates.columns
  rw [hcalculations] at htake'
  rw [hlength]
  refine h.plan_distinct.take_shapeRow_congr h'.plan_distinct ?_ ?_ row
  · rw [h'.outputs_eq, h.outputs_eq, hdimensions, hanswered]
  · exact calculates_rightUnique.forall₂ htake' htake

/-- A calculation may name one that stands before it, behind it, or itself. -/
theorem compile_calculates_chain :
    ∃ (request : Request) (compiled : CompiledQuery),
      request.calculatedKeys = ["early", "half", "quarter"] ∧
      Source.orders.compile .usual .postgresql request = .ok compiled ∧
      compiled.plan.Calculates request ∧
      ∀ (source' : Source) limits' db' request' compiled',
        source'.compile limits' db' request' = .ok compiled' →
        request'.dimensions = request.dimensions → request'.answeredKeys = request.answeredKeys →
        ∀ i, request'.calculations.take i = request.calculations.take i →
        ∀ row, (compiled'.plan.shapeRow row).take (request.answeredKeys.length + i) =
          (compiled.plan.shapeRow row).take (request.answeredKeys.length + i) := by
  let measures : List MeasureRequest :=
    [.computed "early + half" "early", .ofField "total", .computed "total / 2" "half",
      .computed "half / 2" "quarter"]
  let request : Request := { Request.openByRegion with measures := measures }
  obtain ⟨compiled, hcompile⟩ :
      ∃ compiled, Source.orders.compile .usual .postgresql request = .ok compiled := ⟨_, rfl⟩
  exact ⟨request, compiled, rfl, hcompile, compile_calculates hcompile⟩

end Source

end SemanticLayer
