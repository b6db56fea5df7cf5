import Quotation.Proofs.Number.Exact
import Quotation.Proofs.Price.Breakdown
import Quotation.Schema.ProductSchema

/-!
# When a quote is finite

The amount of every line is finite, and so is the order quantity, but a sum of lines and its product
with the quantity may pass the largest double. They are finite for just as long as they stay below
the overflow bound when they are worked out exactly.
-/

namespace Quotation.Price

open Number

/-! ## Sums of lines -/

theorem sum_isFinite_iff {items : List BreakdownItem}
    (h : ∀ item ∈ items, item.amount.isFinite = true) (start : Float) :
    (items.foldl (fun sum item => sum + item.amount) start).isFinite = true ↔
      start.isFinite = true ∧ ∀ front item back, items = front ++ item :: back →
        |exact (front.foldl (fun sum item => sum + item.amount) start) + exact item.amount| <
          overflow := by
  induction items generalizing start with
  | nil => simp
  | cons item items ih =>
    obtain ⟨hitem, hitems⟩ := List.forall_mem_cons.mp h
    rw [List.foldl_cons, ih hitems, isFinite_add]
    constructor
    · rintro ⟨⟨hstart, -, hfirst⟩, hrest⟩
      refine ⟨hstart, fun front next back hsplit => ?_⟩
      cases front with
      | nil =>
        cases hsplit
        exact hfirst
      | cons _ front =>
        cases hsplit
        exact hrest front next back rfl
    · rintro ⟨hstart, hall⟩
      refine ⟨⟨hstart, hitem, hall [] item items rfl⟩, fun front next back hsplit => ?_⟩
      exact hall (item :: front) next back (by rw [hsplit]; rfl)

/-! ## Quantities -/

theorem isFinite_of_finite? {x y : Float} (h : finite? x = some y) : y.isFinite = true := by
  unfold finite? at h
  split at h
  · cases h
    assumption
  · cases h

theorem isFinite_of_number? {value : Value} {x : Float} (h : value.number? = .ok (some x)) :
    x.isFinite = true := by
  have hleading {s : String} (h : Value.leadingNumber? s = some x) : x.isFinite = true := by
    unfold Value.leadingNumber? at h
    split at h
    · exact isFinite_of_finite? h
    · cases h
  cases value with
  | null => cases h
  | bool b => cases h
  | nan mark => cases h
  | int n =>
    obtain ⟨y, -, hy⟩ := bind_eq_ok.mp h
    exact isFinite_of_finite? (pure_eq_ok.mp hy)
  | float y => exact isFinite_of_finite? (Except.ok.inj h)
  | _ => exact hleading (Except.ok.inj h)

theorem quantity_isFinite {values : FormValues} {quantity : Float}
    (h : quantityOf values = .ok quantity) : quantity.isFinite = true := by
  obtain ⟨number, hnumber, hquantity⟩ := bind_eq_ok.mp h
  rw [← pure_eq_ok.mp hquantity]
  cases number with
  | none => decide
  | some x => exact isFinite_of_number? hnumber

/-! ## Quotes -/

/-- The price of one item is finite if no line takes the sum of the lines before it to the overflow
bound, and the total is finite if moreover the exact product with the quantity stays below it. -/
theorem quote_isFinite_iff (parameters : List Parameter) (v : FormValues) (code : Value) :
    let q := quote parameters v code
    (q.unitTotal.isFinite = true ↔ ∀ front item back, q.breakdown = front ++ item :: back →
        |exact (sumOf front) + exact item.amount| < overflow) ∧
      (q.total.isFinite = true ↔
        q.unitTotal.isFinite = true ∧ |exact q.unitTotal * exact q.quantity| < overflow) := by
  unfold quote
  dsimp only
  split
  · rename_i q h
    obtain ⟨values, quantity, mainUnits, items, -, hquantity, -, hitems, rfl⟩ :=
      priceForm_eq_ok.mp h
    have hamounts : ∀ item ∈ items.filterMap id, item.amount.isFinite = true := by
      intro item hitem
      obtain ⟨found, hfound, rfl⟩ := List.mem_filterMap.mp hitem
      obtain ⟨p, -, hp⟩ := (mem_of_mapM hitems).2 _ hfound
      exact (itemOf_explains hp).finite
    constructor
    · exact (sum_isFinite_iff hamounts 0).trans (and_iff_right (by decide))
    · rw [isFinite_mul]
      simp [quantity_isFinite hquantity]
  · have hzero : exact 0 = 0 := exact_eq 0
    have hunit : (0 : Float).isFinite = true := by decide
    constructor
    · exact iff_of_true hunit fun front item back hsplit => by simp [noQuote] at hsplit
    · refine iff_of_true hunit ⟨hunit, ?_⟩
      simp only [noQuote, hzero, zero_mul, abs_zero]
      exact overflow_pos

def surchargeData : Value := .list [
  .object [
    ("name", "a"), ("type", "NumericValue"),
    ("pricing", .object [("base_price", .float 1e308)])],
  .object [
    ("name", "b"), ("type", "NumericValue"),
    ("pricing", .object [("base_price", .float 1e308)])]]

def surchargeAnswers : FormValues := ⟨[⟨"a", "1"⟩, ⟨"b", "1"⟩]⟩

theorem surcharges_are_infinite : ∃ schema, ProductSchema.ofValue surchargeData = .ok schema ∧
    (quote schema.parameters surchargeAnswers).breakdown.length = 2 ∧
    (quote schema.parameters surchargeAnswers).unitTotal.isFinite = false ∧
    (quote schema.parameters surchargeAnswers).total.isFinite = false := by
  have hquote : (ProductSchema.ofValue surchargeData).toOption.any (fun schema => decide (
      (quote schema.parameters surchargeAnswers).breakdown.length = 2 ∧
      (quote schema.parameters surchargeAnswers).unitTotal.isFinite = false ∧
      (quote schema.parameters surchargeAnswers).total.isFinite = false)) = true := by
    decide +kernel
  obtain ⟨schema, hschema, hinfinite⟩ := ok_of_any hquote
  exact ⟨schema, hschema, of_decide_eq_true hinfinite⟩

end Quotation.Price
