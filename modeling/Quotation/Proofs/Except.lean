import Mathlib.Data.List.Forall2

/-!
# Results that may be errors

What a chain of steps gives if none of them fails.
-/

namespace Quotation

variable {ε α β : Type}

@[simp]
theorem ok_bind (a : α) (f : α → Except ε β) : ((.ok a : Except ε α) >>= f) = f a := rfl

@[simp]
theorem error_bind (e : ε) (f : α → Except ε β) : ((.error e : Except ε α) >>= f) = .error e := rfl

theorem bind_eq_ok {x : Except ε α} {f : α → Except ε β} {b : β} :
    x >>= f = .ok b ↔ ∃ a, x = .ok a ∧ f a = .ok b := by
  cases x <;> simp

theorem bind_eq_error {x : Except ε α} {f : α → Except ε β} {e : ε} :
    x >>= f = .error e ↔ x = .error e ∨ ∃ a, x = .ok a ∧ f a = .error e := by
  cases x <;> simp

theorem exists_bind_eq_ok {x : Except ε α} {f : α → Except ε β} :
    (∃ b, x >>= f = .ok b) ↔ ∃ a, x = .ok a ∧ ∃ b, f a = .ok b := by
  cases x <;> simp

theorem pure_eq_ok {a b : α} : (pure a : Except ε α) = .ok b ↔ a = b := by
  simp [pure, Except.pure]

theorem mapError_eq_ok {δ : Type} {x : Except ε α} {f : ε → δ} {a : α} :
    x.mapError f = .ok a ↔ x = .ok a := by
  cases x <;> simp [Except.mapError]

theorem mapError_eq_error {δ : Type} {x : Except ε α} {f : ε → δ} {d : δ} :
    x.mapError f = .error d ↔ ∃ e, x = .error e ∧ f e = d := by
  cases x <;> simp [Except.mapError]

theorem ok_of_any {x : Except ε α} {test : α → Bool} (h : x.toOption.any test = true) :
    ∃ a, x = .ok a ∧ test a = true := by
  cases x with
  | error e => cases h
  | ok a => exact ⟨a, rfl, h⟩

theorem ok_of_toOption {x : Except ε α} {a : α} (h : x.toOption = some a) : x = .ok a := by
  cases x with
  | error e => cases h
  | ok b => exact congrArg _ (Option.some.inj h)

theorem toOption_map (f : α → β) (x : Except ε α) : (x.map f).toOption = x.toOption.map f := by
  cases x <;> rfl

theorem mapM_eq_ok {f : α → Except ε β} {as : List α} {bs : List β} :
    as.mapM f = .ok bs ↔ List.Forall₂ (fun a b => f a = .ok b) as bs := by
  induction as generalizing bs with
  | nil => rw [List.mapM_nil, pure_eq_ok, List.forall₂_nil_left_iff, eq_comm]
  | cons a as ih =>
    simp only [List.mapM_cons, bind_eq_ok, pure_eq_ok, ih, List.forall₂_cons_left_iff]
    constructor
    · rintro ⟨b, hb, rest, hrest, rfl⟩
      exact ⟨b, rest, hb, hrest, rfl⟩
    · rintro ⟨b, rest, hb, hrest, rfl⟩
      exact ⟨b, hb, rest, hrest, rfl⟩

theorem mapM_congr {f g : α → Except ε β} {as : List α} (h : ∀ a ∈ as, f a = g a) :
    as.mapM f = as.mapM g := by
  induction as with
  | nil => rfl
  | cons a as ih =>
    rw [List.mapM_cons, List.mapM_cons, h a (List.mem_cons_self ..),
      ih fun a ha => h a (List.mem_cons_of_mem _ ha)]

theorem mapM_total {f : α → Except ε β} {as : List α} (h : ∀ a ∈ as, ∃ b, f a = .ok b) :
    ∃ bs, as.mapM f = .ok bs := by
  induction as with
  | nil => exact ⟨[], rfl⟩
  | cons a as ih =>
    obtain ⟨b, hb⟩ := h a (List.mem_cons_self ..)
    obtain ⟨bs, hbs⟩ := ih fun a ha => h a (List.mem_cons_of_mem _ ha)
    exact ⟨b :: bs, by rw [List.mapM_cons, hb, ok_bind, hbs]; rfl⟩

theorem mapM_map_ok {γ : Type} {write : α → β} {read : β → Except ε γ} {g : α → γ} {as : List α}
    (h : ∀ a ∈ as, read (write a) = .ok (g a)) : (as.map write).mapM read = .ok (as.map g) := by
  rw [mapM_eq_ok, List.forall₂_map_left_iff, List.forall₂_map_right_iff]
  exact List.forall₂_same.mpr h

theorem mapM_ok {f : α → Except ε β} {g : α → β} {as : List α} (h : ∀ a ∈ as, f a = .ok (g a)) :
    as.mapM f = .ok (as.map g) := by
  have hmap : (as.map id).mapM f = .ok (as.map g) := mapM_map_ok h
  rwa [List.map_id] at hmap

theorem mapM_map_of_inverse {write : α → β} {read : β → Except ε α} {as : List α}
    (h : ∀ a ∈ as, read (write a) = .ok a) : (as.map write).mapM read = .ok as := by
  rw [mapM_map_ok h, List.map_id']

theorem mem_of_mapM {f : α → Except ε β} {as : List α} {bs : List β} (h : as.mapM f = .ok bs) :
    (∀ a ∈ as, ∃ b ∈ bs, f a = .ok b) ∧ ∀ b ∈ bs, ∃ a ∈ as, f a = .ok b := by
  rw [mapM_eq_ok] at h
  induction h with
  | nil => exact ⟨fun a ha => (nomatch ha), fun b hb => (nomatch hb)⟩
  | cons hb _ ih =>
    simp only [List.forall_mem_cons, List.exists_mem_cons_iff]
    exact ⟨⟨.inl hb, fun a ha => .inr (ih.1 a ha)⟩, .inl hb, fun b hb => .inr (ih.2 b hb)⟩

theorem mapM_iff {f : α → Except ε β} {as : List α} :
    (∃ bs, as.mapM f = .ok bs) ↔ ∀ a ∈ as, ∃ b, f a = .ok b := by
  refine ⟨?_, mapM_total⟩
  rintro ⟨bs, hbs⟩ a ha
  obtain ⟨b, -, hb⟩ := (mem_of_mapM hbs).1 a ha
  exact ⟨b, hb⟩

theorem mapM_total_of {f : α → Except ε β} {P : β → Prop} {as : List α}
    (h : ∀ a ∈ as, ∃ b, f a = .ok b ∧ P b) : ∃ bs, as.mapM f = .ok bs ∧ ∀ b ∈ bs, P b := by
  obtain ⟨bs, hbs⟩ := mapM_total fun a ha => (h a ha).imp fun _ => And.left
  refine ⟨bs, hbs, fun b hb => ?_⟩
  obtain ⟨a, ha, hstep⟩ := (mem_of_mapM hbs).2 b hb
  obtain ⟨b', hb', hP⟩ := h a ha
  rw [hstep] at hb'
  cases hb'
  exact hP

/-- The results that are kept of a traversal come from some of its steps, in their order. -/
theorem sublist_of_mapM {f : α → Except ε (Option β)} {R : α → β → Prop} {as : List α}
    {bs : List (Option β)} (h : as.mapM f = .ok bs) (hR : ∀ a b, f a = .ok (some b) → R a b) :
    ∃ kept, kept.Sublist as ∧ List.Forall₂ R kept (bs.filterMap id) := by
  rw [mapM_eq_ok] at h
  induction h with
  | nil => exact ⟨[], List.Sublist.slnil, .nil⟩
  | @cons a b _ _ hb _ ih =>
    obtain ⟨kept, hkept, hrel⟩ := ih
    cases b with
    | none => exact ⟨kept, hkept.cons a, hrel⟩
    | some b => exact ⟨a :: kept, hkept.cons_cons a, .cons (hR a b hb) hrel⟩

theorem foldlM_eq_self {f : β → α → Except ε β} {b : β} {as : List α}
    (h : ∀ a ∈ as, f b a = .ok b) : as.foldlM f b = .ok b := by
  induction as with
  | nil => rfl
  | cons a as ih =>
    rw [List.foldlM_cons, h a (List.mem_cons_self ..), ok_bind]
    exact ih fun a ha => h a (List.mem_cons_of_mem _ ha)

theorem foldlM_total {f : β → α → Except ε β} {P : β → Prop} {as : List α} {b : β}
    (h : ∀ a ∈ as, ∀ b, P b → ∃ b', f b a = .ok b' ∧ P b') (hb : P b) :
    ∃ b', as.foldlM f b = .ok b' ∧ P b' := by
  induction as generalizing b with
  | nil => exact ⟨b, rfl, hb⟩
  | cons a as ih =>
    obtain ⟨c, hone, hc⟩ := h a (List.mem_cons_self ..) b hb
    obtain ⟨b', hrest, hb'⟩ := ih (fun a ha => h a (List.mem_cons_of_mem _ ha)) hc
    exact ⟨b', by rw [List.foldlM_cons, hone, ok_bind, hrest], hb'⟩

/-- What each step keeps holds at the end. It may speak of the steps that are left. -/
theorem foldlM_induction {f : β → α → Except ε β} {as : List α} {motive : List α → β → Prop}
    {b b' : β}
    (step : ∀ a ∈ as, ∀ rest b b', motive (a :: rest) b → f b a = .ok b' → motive rest b')
    (h : as.foldlM f b = .ok b') (start : motive as b) : motive [] b' := by
  induction as generalizing b with
  | nil =>
    cases h
    exact start
  | cons a as ih =>
    rw [List.foldlM_cons] at h
    obtain ⟨c, hone, hrest⟩ := bind_eq_ok.mp h
    exact ih (fun a' ha' => step a' (List.mem_cons_of_mem _ ha')) hrest
      (step a (List.mem_cons_self ..) as b c start hone)

end Quotation
