import Quotation.Proofs.Derived.Without
import Quotation.Proofs.Price.Breakdown
import Quotation.Proofs.Price.Range

/-!
# Parameters are priced by themselves

A parameter that the others do not refer to adds its own line to a quote, or none, and changes
nothing else in the breakdown, however it is priced and whatever it holds.
-/

namespace Quotation.Price

open Derived (resolve derivedOf without Unread)

def LinesOf (values : FormValues) (symbol : String) (parameters : List Parameter)
    (lines : List BreakdownItem) : Prop :=
  ∃ items, (parameters.mapM fun p => itemOf p values symbol) = .ok items ∧
    items.filterMap id = lines

/-- The others do not use the name of a parameter, as a name of theirs or of their sub-options, to
read it in a formula or to be shown by it, and it is neither the order quantity nor the main
units. -/
@[mk_iff]
structure Alone (others : List Parameter) (p : Parameter) : Prop where
  quantity : p.key ≠ quantityName
  mainUnits : p.isMainUnits = false
  name : ∀ q ∈ others, q.key ≠ p.key
  subName : ∀ q ∈ others, (q.subName : Key) ≠ p.key
  dependency : ∀ q ∈ others, p.key ∉ q.dependsOn
  parent : ∀ q ∈ others, ∀ c ∈ q.conditional, c.parentKey ≠ p.key

instance (others : List Parameter) (p : Parameter) : Decidable (Alone others p) :=
  decidable_of_iff _ (alone_iff others p).symm

section

variable {values v w m : FormValues} {symbol : String} {xs ys others : List Parameter}
  {p q : Parameter} {lines : List BreakdownItem} {currency : Currency}

/-! ## Lines -/

theorem linesOf_append : LinesOf values symbol (xs ++ ys) lines ↔
    ∃ front back, LinesOf values symbol xs front ∧ LinesOf values symbol ys back ∧
      lines = front ++ back := by
  simp only [LinesOf, List.mapM_append, bind_eq_ok, pure_eq_ok]
  constructor
  · rintro ⟨items, ⟨front, hfront, back, hback, rfl⟩, rfl⟩
    exact ⟨_, _, ⟨front, hfront, rfl⟩, ⟨back, hback, rfl⟩, List.filterMap_append⟩
  · rintro ⟨_, _, ⟨front, hfront, rfl⟩, ⟨back, hback, rfl⟩, rfl⟩
    exact ⟨_, ⟨front, hfront, back, hback, rfl⟩, List.filterMap_append⟩

theorem linesOf_cons : LinesOf values symbol (p :: ys) lines ↔
    ∃ line back, itemOf p values symbol = .ok line ∧ LinesOf values symbol ys back ∧
      lines = line.toList ++ back := by
  simp only [LinesOf, List.mapM_cons, bind_eq_ok, pure_eq_ok]
  constructor
  · rintro ⟨items, ⟨line, hline, back, hback, rfl⟩, rfl⟩
    refine ⟨line, _, hline, ⟨back, hback, rfl⟩, ?_⟩
    cases line <;> rfl
  · rintro ⟨line, _, hline, ⟨back, hback, rfl⟩, rfl⟩
    refine ⟨line :: back, ⟨line, hline, back, hback, rfl⟩, ?_⟩
    cases line <;> rfl

theorem LinesOf.congr (h : LinesOf v symbol xs lines) (hsame : ∀ q ∈ xs, Form.SeenAlike q v w) :
    LinesOf w symbol xs lines := by
  obtain ⟨items, hitems, hlines⟩ := h
  rw [mapM_congr fun q hq => itemOf_congr (hsame q hq) symbol] at hitems
  exact ⟨items, hitems, hlines⟩

/-! ## Leaving a parameter out -/

theorem Alone.without_eq (alone : Alone (xs ++ ys) p) :
    without p.key (xs ++ p :: ys) = xs ++ ys := by
  rw [Derived.without_append, Derived.without_cons_self, ← Derived.without_append]
  exact Derived.without_eq_self alone.name

theorem Alone.unread (alone : Alone (xs ++ ys) p) : Unread p.key (derivedOf (xs ++ p :: ys)) := by
  intro q hq hne
  have hmem : q ∈ without p.key (xs ++ p :: ys) :=
    Derived.mem_without.mpr ⟨(Derived.mem_derivedOf.mp hq).1, hne⟩
  rw [alone.without_eq] at hmem
  exact alone.dependency q hmem

theorem Alone.seenAlike (alone : Alone others p) (h : FormValues.AgreeOff [p.key] v w)
    (hq : q ∈ others) : Form.SeenAlike q v w := by
  exact ⟨Form.isVisible_congr fun c hc => h.of_ne (alone.parent q hq c hc),
    .inr ⟨h.of_ne (alone.name q hq), h.of_ne (alone.subName q hq)⟩⟩

theorem Alone.mainUnitsOf_eq (alone : Alone (xs ++ ys) p)
    (h : FormValues.AgreeOff [p.key] v w) :
    mainUnitsOf (xs ++ p :: ys) v = mainUnitsOf (xs ++ ys) w := by
  have hfind : (xs ++ p :: ys).find? (·.isMainUnits) = (xs ++ ys).find? (·.isMainUnits) := by
    rw [List.find?_append, List.find?_append, List.find?_cons_of_neg (by simp [alone.mainUnits])]
  rw [mainUnitsOf, hfind]
  exact mainUnitsOf_congr fun q hq => h.of_ne (alone.name q (List.mem_of_find?_eq_some hq))

/-- One quote has the lines of another and, in the place of a parameter between them, its own line
or none. -/
def AddsOwnLine (symbol : String) (xs : List Parameter) (p : Parameter) (ys : List Parameter)
    (q r : Quote) : Prop :=
  ∃ front line back, LinesOf q.values symbol xs front ∧ itemOf p q.values symbol = .ok line ∧
    LinesOf q.values symbol ys back ∧ q.breakdown = front ++ line.toList ++ back ∧
    LinesOf r.values symbol xs front ∧ LinesOf r.values symbol ys back ∧
    r.breakdown = front ++ back

theorem priceForm_of_alone (alone : Alone (xs ++ ys) p) {q : Quote}
    (h : priceForm (xs ++ p :: ys) v currency = .ok q) :
    ∃ r, priceForm (xs ++ ys) v currency = .ok r ∧ AddsOwnLine currency.symbol xs p ys q r ∧
      q.quantity = r.quantity ∧ q.mainUnits = r.mainUnits := by
  obtain ⟨m, quantity, mainUnits, items, hm, hquantity, hmainUnits, hitems, rfl⟩ :=
    priceForm_eq_ok.mp h
  obtain ⟨m', hm', hagree⟩ := Derived.resolve_without alone.unread hm
  rw [alone.without_eq] at hm'
  have hlines : LinesOf m currency.symbol (xs ++ p :: ys) (items.filterMap id) :=
    ⟨items, hitems, rfl⟩
  obtain ⟨front, _, hfront, hrest, hbreakdown⟩ := linesOf_append.mp hlines
  obtain ⟨line, back, hline, hback, rfl⟩ := linesOf_cons.mp hrest
  have hfront' : LinesOf m' currency.symbol xs front := hfront.congr fun q hq =>
    alone.seenAlike hagree (List.mem_append_left _ hq)
  have hback' : LinesOf m' currency.symbol ys back := hback.congr fun q hq =>
    alone.seenAlike hagree (List.mem_append_right _ hq)
  obtain ⟨items', hitems', hbreakdown'⟩ := linesOf_append.mpr ⟨front, back, hfront', hback', rfl⟩
  rw [alone.mainUnitsOf_eq hagree] at hmainUnits
  rw [quantityOf_congr (hagree.of_ne alone.quantity.symm)] at hquantity
  refine ⟨_, priceForm_eq_ok.mpr ⟨m', quantity, mainUnits, items', hm', hquantity, hmainUnits,
    hitems', rfl⟩, ?_, rfl, rfl⟩
  rw [← List.append_assoc] at hbreakdown
  exact ⟨front, line, back, hfront, hline, hback, hbreakdown, hfront', hback', hbreakdown'⟩

end

/-- In a schema that was read, a parameter that stands alone adds at most its own line to a quote, in
its place, and leaves the other lines, the quantity and the main units as they are. -/
theorem adds_own_line_only {data name : Value} {schema : ProductSchema} {xs ys : List Parameter}
    {p : Parameter} {v : FormValues} (hschema : ProductSchema.ofValue data name = .ok schema)
    (hparameters : schema.parameters = xs ++ p :: ys) (alone : Alone (xs ++ ys) p)
    (hv : v.InRange) (code : Value) :
    let q := quote (xs ++ p :: ys) v code
    let r := quote (xs ++ ys) v code
    AddsOwnLine (Currency.ofCode code).symbol xs p ys q r ∧ q.quantity = r.quantity ∧
      q.mainUnits = r.mainUnits := by
  have hnames := Schema.namesUsed_isName (ProductSchema.normal_of_ofValue hschema)
  rw [hparameters] at hnames
  obtain ⟨q, hq⟩ := priceForm_total hv hnames (Currency.ofCode code)
  obtain ⟨r, hr, hadds⟩ := priceForm_of_alone alone hq
  dsimp only
  rw [quote_of_priceForm hq, quote_of_priceForm hr]
  exact hadds

/-- A poster with a fee for rush orders, whose formula cannot be read. Frame and glass wait for each
other. -/
def posterData : Value := .list [
  .object [
    ("name", "width"), ("type", "NumericValue"), ("isMainUnits", .bool true),
    ("pricing", .object [("unit_price", .int 2)])],
  .object [
    ("name", "frame"), ("type", "DerivedCalc"), ("formula", "glass + 1"),
    ("dependencies", .list ["glass"]), ("pricing", .object [("unit_price", .int 1)])],
  .object [
    ("name", "rush"), ("type", "DerivedCalc"), ("formula", "width * ("),
    ("dependencies", .list ["width", "rush"]), ("pricing", .object [("base_price", .int 7)])],
  .object [
    ("name", "glass"), ("type", "DerivedCalc"), ("formula", "frame * 2"),
    ("dependencies", .list ["frame", "width"]), ("pricing", .object [("unit_price", .int 1)])]]

def posterAnswers : FormValues := ⟨[⟨"width", .int 3⟩, ⟨"quantity", .text "2"⟩]⟩

/-- The fee stands alone between other parameters, and is charged in a quote. -/
def feeIsCharged : List Parameter → Bool
  | [width, frame, rush, glass] =>
    decide (Alone [width, frame, glass] rush) &&
      (quote [width, frame, rush, glass] posterAnswers "USD").unitTotal == 16 &&
      (quote [width, frame, glass] posterAnswers "USD").unitTotal == 9
  | _ => false

theorem rush_fee_adds_its_own_line : ∃ schema width frame rush glass,
    ProductSchema.ofValue posterData = .ok schema ∧
    schema.parameters = [width, frame] ++ rush :: [glass] ∧
    feeIsCharged schema.parameters = true ∧
    let q := quote ([width, frame] ++ rush :: [glass]) posterAnswers "USD"
    let r := quote ([width, frame] ++ [glass]) posterAnswers "USD"
    AddsOwnLine (Currency.ofCode "USD").symbol [width, frame] rush [glass] q r ∧
      q.quantity = r.quantity ∧ q.mainUnits = r.mainUnits := by
  have hcharged : (ProductSchema.ofValue posterData).toOption.any (fun schema =>
      feeIsCharged schema.parameters) = true := by
    decide +kernel
  obtain ⟨schema, hschema, hfee⟩ := ok_of_any hcharged
  have hcases := hfee
  unfold feeIsCharged at hcases
  split at hcases
  · rename_i width frame rush glass hparameters
    simp only [Bool.and_eq_true, decide_eq_true_eq] at hcases
    have hrange : posterAnswers.InRange := FormValues.inRange_of_entries (by decide +kernel)
    exact ⟨schema, width, frame, rush, glass, hschema, hparameters, hfee,
      adds_own_line_only hschema hparameters hcases.1.1 hrange "USD"⟩
  · cases hcases

end Quotation.Price
