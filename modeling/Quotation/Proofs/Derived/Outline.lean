import Mathlib.Data.List.Basic
import Quotation.Derived.Resolution

/-!
# What working out reads of a parameter

Derived values follow from the names, kinds, formulas and dependencies of the parameters. Prices,
choices, labels and conditions have no say in them.
-/

namespace Quotation.Derived

/-- A parameter with only those of its fields that it is worked out by. -/
def outline (p : Parameter) : Parameter where
  id := ""
  name := p.name
  kind := p.kind
  formula := p.formula
  dependencies := p.dependencies

theorem key_outline (p : Parameter) : (outline p).key = p.key := rfl

theorem resolveOne_outline (v : FormValues) (p : Parameter) :
    resolveOne v (outline p) = resolveOne v p := rfl

/-! ## The order -/

theorem derivedOf_map (parameters : List Parameter) :
    derivedOf (parameters.map outline) = (derivedOf parameters).map outline := by
  rw [derivedOf, List.filter_map]
  rfl

theorem keysOf_map (derived : List Parameter) : keysOf (derived.map outline) = keysOf derived :=
  List.map_map

theorem declared_map (derived : List Parameter) (key : Key) :
    declared (derived.map outline) key = declared derived key := by
  have hfind : (derived.map outline).reverse.find? (·.key == key) =
      (derived.reverse.find? (·.key == key)).map outline := by
    rw [← List.map_reverse, List.find?_map]
    rfl
  rw [declared, declared, hfind]
  cases derived.reverse.find? (·.key == key) <;> rfl

theorem waitsFor_map (derived : List Parameter) (key : Key) :
    waitsFor (derived.map outline) key = waitsFor derived key := by
  rw [waitsFor, waitsFor, declared_map, keysOf_map]

theorem place_map (derived placed : List Parameter) (p : Parameter) :
    place (derived.map outline) (placed.map outline) (outline p) =
      (place derived placed p).map outline := by
  unfold place
  rw [keysOf_map, key_outline, waitsFor_map]
  split
  · rfl
  · split
    · rw [List.map_append]
      rfl
    · rfl

theorem sweep_map (derived placed : List Parameter) :
    sweep (derived.map outline) (placed.map outline) = (sweep derived placed).map outline := by
  unfold sweep
  rw [List.foldl_map]
  exact List.foldl_hom (List.map outline) (place_map derived)

theorem sweeps_map (derived : List Parameter) (count : Nat) (placed : List Parameter) :
    sweeps (derived.map outline) count (placed.map outline) =
      (sweeps derived count placed).map outline := by
  induction count generalizing placed with
  | zero => rfl
  | succ count ih =>
    simp only [sweeps, sweep_map, List.length_map]
    split
    · rfl
    · exact ih _

theorem dependencyOrder_map (parameters : List Parameter) :
    dependencyOrder (parameters.map outline) = (dependencyOrder parameters).map outline := by
  have hordered (derived : List Parameter) :
      ordered (derived.map outline) = (ordered derived).map outline := by
    rw [ordered, List.length_map]
    exact sweeps_map derived derived.length []
  simp only [dependencyOrder, derivedOf_map, hordered, keysOf_map, List.filter_map,
    List.map_append]
  rfl

theorem namesOf_map (derived : List Parameter) : namesOf (derived.map outline) = namesOf derived := by
  rw [namesOf, namesOf, List.map_map, List.flatMap_map]
  rfl

/-! ## The values -/

theorem resolve_map (parameters : List Parameter) (v : FormValues) :
    resolve (parameters.map outline) v = resolve parameters v := by
  have hpass (order : List Parameter) :
      (order.map outline).foldlM resolveOne v = order.foldlM resolveOne v := by
    rw [List.foldlM_map]
    simp only [resolveOne_outline]
  simp only [resolve, schedule, derivedOf_map, namesOf_map, dependencyOrder_map, bind_assoc,
    pure_bind, hpass]

theorem resolve_of_outlines {parameters others : List Parameter}
    (h : parameters.map outline = others.map outline) (v : FormValues) :
    resolve parameters v = resolve others v := by
  rw [← resolve_map, h, resolve_map]

end Quotation.Derived
