import Quotation.Proofs.Derived.Resolution
import Quotation.Proofs.Formula.Arithmetic
import Quotation.Proofs.Number.Leading
import Quotation.Proofs.Number.Shown
import Quotation.Proofs.Price.Breakdown
import Quotation.Proofs.Schema.Written

/-!
# Worked out numbers are stored whole

A derived value is stored as the plain text of a number. Every formula that depends on it and every
price that is charged by it reads the same number from the text, and a negative zero as the plain
one. Numbers that look alike in an option are therefore equal, too.
-/

namespace Quotation

open Number

variable {x y : Float}

/-! ## Plain texts -/

theorem plainZero_of_beq (h : (x == 0) = true) : plainZero x = 0 := if_pos h

theorem plainZero_of_ne (h : (x == 0) = false) : plainZero x = x := if_neg (by simp [h])

theorem number?_plainText (hfinite : x.isFinite = true) :
    (Value.text (plainText x)).number? = .ok (some (plainZero x)) := by
  rw [number?_text]
  cases hx : x == 0 with
  | true =>
    rw [plainText_zero hx, plainZero_of_beq hx]
    decide +kernel
  | false =>
    obtain ⟨n, hform, hread⟩ := plainText_numeral hfinite hx
    rw [leadingNumber?_of_numeral hform, hread, plainZero_of_ne hx, finite?, if_pos hfinite]

theorem plainZero_eq_iff (hx : x.isFinite = true) (hy : y.isFinite = true) :
    plainZero x = plainZero y ↔ (x == y) = true := by
  have hzero : ((0 : Float) == 0) = true := by decide
  rw [beq_iff hx hy]
  unfold plainZero
  -- A zero is told from other numbers by the comparison with zero.
  grind

theorem plainText_eq_iff (hx : x.isFinite = true) (hy : y.isFinite = true) :
    plainText x = plainText y ↔ (x == y) = true := by
  constructor
  · intro h
    have hread := number?_plainText hx
    rw [h, number?_plainText hy] at hread
    exact (plainZero_eq_iff hx hy).mp (Option.some.inj (Except.ok.inj hread)).symm
  · intro h
    rcases (beq_iff hx hy).mp h with rfl | ⟨hx0, hy0⟩
    · rfl
    · rw [plainText_zero hx0, plainText_zero hy0]

/-! ## Reading what is stored -/

/-- A parameter whose field is read as one number, wherever its number is asked for. -/
structure ReadsAs (p : Parameter) (v : FormValues) (x : Float) : Prop where
  formula : ∀ (q : Parameter) (name : String) (bound : List (String × Value)),
    p.name = .text name → p.name ∈ q.dependencies → Derived.bindings q v = .ok bound →
      Formula.readBinding bound name = .ok x
  units : ∀ symbol, p.kind ≠ .fixedOption →
    Price.parameterLine p (v.get p.key) v symbol =
      .ok (Price.unitsLine (Price.baseLine p symbol) p (Price.totalUnits p x) symbol)
  mainUnits : ∀ parameters : List Parameter, p.name.isName = true →
    parameters.find? (·.isMainUnits) = some p → Price.mainUnitsOf parameters v = .ok x
  quantity : p.key = quantityName → Price.quantityOf v = .ok x

variable {p : Parameter} {v : FormValues} {value : Value}

theorem readsAs_of_number? (hheld : v.get p.key = value) (hread : value.number? = .ok (some x)) :
    ReadsAs p v x := by
  have hnumber : value.numberOrZero = .ok x := by
    rw [Value.numberOrZero, hread]
    rfl
  constructor
  · intro q name bound hname hdependency hbound
    rw [hname] at hdependency
    obtain ⟨y, hy, hlookup⟩ := Derived.lookup_bindings hbound hdependency
    have hkey : p.key = name := congrArg Value.key hname
    rw [← hkey, hheld, hnumber] at hy
    cases hy
    rw [Formula.readBinding, hlookup]
    rfl
  · intro symbol hkind
    rw [Price.parameterLine_of_ne hkind, hheld, hnumber]
    rfl
  · intro parameters hname hfind
    have hheld' : v.read p.name = .ok value := by
      rw [FormValues.read, if_pos hname]
      exact congrArg _ hheld
    rw [Price.mainUnitsOf, hfind]
    dsimp only
    rw [hheld']
    exact hnumber
  · intro hkey
    rw [hkey] at hheld
    rw [Price.quantityOf, hheld, hread]
    rfl

theorem evaluateDerived_of_evaluate {bound : List (String × Value)}
    (hbound : Derived.bindings p v = .ok bound)
    (hvalue : Formula.evaluate ((p.givenFormula.getD (.text "")).shown) bound = .ok x) :
    Derived.evaluateDerived p v = .ok (plainText x) :=
  (Derived.evaluateDerived_eq_ok hbound).mpr (.inl ⟨x, hvalue, rfl⟩)

/-- Storing a number as text loses nothing: text that was made of a finite number is read as that
number, a form that holds the text of a worked out parameter is read as what its formula comes to,
and options are looked up by the same text exactly for equal numbers. -/
theorem stored_numbers_are_kept :
    (∀ x : Float, x.isFinite = true →
      (Value.text (plainText x)).number? = .ok (some (plainZero x))) ∧
    (∀ (p : Parameter) (v : FormValues) (bound : List (String × Value)) (x : Float),
      Derived.bindings p v = .ok bound →
      Formula.evaluate ((p.givenFormula.getD (.text "")).shown) bound = .ok x →
      Derived.evaluateDerived p v = .ok (plainText x) ∧
      ∀ w : FormValues, w.get p.key = .text (plainText x) → ReadsAs p w (plainZero x)) ∧
    (∀ x y : Float, x.isFinite = true → y.isFinite = true →
      ((Value.float x).optionKey = (Value.float y).optionKey ↔ (x == y) = true)) := by
  refine ⟨fun x hx => number?_plainText hx, fun p v bound x hbound hvalue => ?_,
    fun x y hx hy => ?_⟩
  · have hfinite := Formula.isFinite_of_evaluate hvalue
    exact ⟨evaluateDerived_of_evaluate hbound hvalue, fun w hw =>
      readsAs_of_number? hw (number?_plainText hfinite)⟩
  · rw [← plainText_eq_iff hx hy]
    exact ⟨Except.ok.inj, congrArg _⟩

def quarter : Parameter :=
  { id := "quarter", name := .text "quarter", kind := .derivedCalc
    formula := some (.text "width / 4"), dependencies := [.text "width"] }

/-- A width so small that its quarter is written with a power of ten. -/
def film : FormValues := .ofFields [("width", .text "1e-7mm")]

theorem quarter_of_film_is_kept :
    (Value.text "2.5e-08").number? = .ok (some 2.5e-8) ∧
      Derived.evaluateDerived quarter film = .ok "2.5e-08" ∧
      ReadsAs quarter (film.set "quarter" (.text "2.5e-08")) 2.5e-8 ∧
      (Value.float 0).optionKey = (Value.float (-0.0)).optionKey := by
  have hbound : Derived.bindings quarter film = .ok [("width", .float 1e-7)] := rfl
  have hvalue : Formula.evaluate ((quarter.givenFormula.getD (.text "")).shown)
      [("width", .float 1e-7)] = .ok 2.5e-8 := by decide +kernel
  have hfinite : (2.5e-8 : Float).isFinite = true := by decide
  have htext : plainText 2.5e-8 = "2.5e-08" := by decide +kernel
  have hzero : plainZero 2.5e-8 = 2.5e-8 := by decide
  obtain ⟨hread, hstored, hkey⟩ := stored_numbers_are_kept
  have hquarter := hread 2.5e-8 hfinite
  obtain ⟨hevaluated, hkept⟩ := hstored quarter film _ 2.5e-8 hbound hvalue
  rw [htext, hzero] at hquarter hkept
  rw [htext] at hevaluated
  have hsame := (hkey 0 (-0.0) (by decide) (by decide)).mpr (by decide)
  exact ⟨hquarter, hevaluated, hkept _ rfl, hsame⟩

end Quotation
