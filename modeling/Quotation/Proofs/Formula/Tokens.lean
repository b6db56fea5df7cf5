import Quotation.Formula.Token
import Quotation.Proofs.Except
import Quotation.Proofs.Number.Numeral
import Quotation.Proofs.Text.Characters

/-!
# Splitting into tokens

A formula is scanned from left to right. Blanks are passed over, and where a token starts the longest
text of its kind is taken. The scan either comes to the end or arrives at a character that starts no
token, and the tokens are found in the first case only. They hold every character but the blanks, and
written with single spaces between them they are the same tokens again.
-/

namespace Quotation.Formula

open Number Text

/-! ## What tokens are -/

inductive Token.Kind where
  | number
  | name
  | symbol
  deriving DecidableEq

def Token.kind : Token → Kind
  | number _ => .number
  | name _ => .name
  | symbol _ => .symbol

inductive TokenText : List Char → Token → Prop where
  | number {text m} (digits : MantissaText text m) : TokenText text (.number m)
  | name {c rest} (start : isNameStart c = true) (all : ∀ d ∈ rest, isNameChar d = true) :
    TokenText (c :: rest) (.name (String.ofList (c :: rest)))
  | symbol (s : Symbol) : TokenText [s.char] (.symbol s)

def OfKind (kind : Token.Kind) (text : List Char) : Prop := ∃ t, TokenText text t ∧ t.kind = kind

def StartsNumber (c : Char) (rest : List Char) : Prop :=
  isDigit c = true ∨ c = '.' ∧ ∃ d ∈ rest.head?, isDigit d = true

def StartsToken (c : Char) (rest : List Char) : Prop :=
  StartsNumber c rest ∨ (c.isAlpha = true ∨ c = '_') ∨ c ∈ ['+', '-', '*', '/', '(', ')']

/-- A scan of a text from the left, which has found a row of tokens and has arrived at a rest. -/
inductive Arrives (cs : List Char) : List Token → List Char → Prop where
  | start : Arrives cs [] cs
  | blank {row c rest} (before : Arrives cs row (c :: rest)) (blank : isBlank c = true) :
    Arrives cs row rest
  | token {row t rest} (before : Arrives cs row (t.text.toList ++ rest))
      (text : TokenText t.text.toList t)
      (longest : IsLongest (OfKind t.kind) t.text.toList (t.text.toList ++ rest)) :
    Arrives cs (row ++ [t]) rest

variable {cs rest text : List Char} {c : Char} {t u : Token} {row : List Token}

/-! ## The first character of a token -/

theorem code_of_isNameStart (h : isNameStart c = true) :
    65 ≤ c.toNat ∧ c.toNat ≤ 122 := by
  have hstart : isNameStart c = (decide ('A'.val ≤ c.val ∧ c.val ≤ 'Z'.val) ||
      (decide ('a'.val ≤ c.val) && decide (c.val ≤ 'z'.val)) || c == '_') := rfl
  simp only [hstart, Bool.or_eq_true, decide_eq_true_eq, beq_iff_eq, Bool.and_eq_true,
    UInt32.le_iff_toNat_le] at h
  rcases h with (⟨hlow, hhigh⟩ | ⟨hlow, hhigh⟩) | rfl
  · exact ⟨hlow, Nat.le_trans hhigh (by decide)⟩
  · exact ⟨Nat.le_trans (by decide) hlow, hhigh⟩
  · decide

theorem TokenText.eq_text (h : TokenText text t) : text = t.text.toList := by
  cases h with
  | number digits => rw [digits.eq_chars, Token.text, Mantissa.text, String.toList_ofList]
  | name => rw [Token.text, String.toList_ofList]
  | symbol s => simp [Token.text]

def Token.Kind.StartsAt : Kind → Nat → Prop
  | number, code => code = 46 ∨ 48 ≤ code ∧ code < 58 ∨ 0x660 ≤ code
  | name, code => 65 ≤ code ∧ code ≤ 122
  | symbol, code => 40 ≤ code ∧ code ≤ 47 ∧ code ≠ 46

theorem startsAt_unique {kind other : Token.Kind} {code : Nat} (h : kind.StartsAt code)
    (hother : other.StartsAt code) : kind = other := by
  cases kind <;> cases other <;> simp only [Token.Kind.StartsAt] at h hother <;> first | rfl | omega

theorem startsAt_number (h : isDigit c = true ∨ c = '.') :
    Token.Kind.number.StartsAt c.toNat := by
  rcases h with h | rfl
  · exact .inr (code_of_isDigit h)
  · exact .inl rfl

theorem startsAt_symbol (s : Symbol) : Token.Kind.symbol.StartsAt s.char.toNat := by
  cases s <;> simp [Token.Kind.StartsAt, Symbol.char]

theorem TokenText.exists_start (h : TokenText text t) :
    ∃ c rest, text = c :: rest ∧ t.kind.StartsAt c.toNat := by
  cases h with
  | number digits =>
    obtain ⟨c, hc, hstart⟩ := digits.starts []
    rw [List.append_nil] at hc
    obtain ⟨rest, rfl⟩ := List.head?_eq_some_iff.mp hc
    exact ⟨c, rest, rfl, startsAt_number hstart⟩
  | name start => exact ⟨_, _, rfl, code_of_isNameStart start⟩
  | symbol s => exact ⟨_, _, rfl, startsAt_symbol s⟩

theorem TokenText.kind_eq {other : List Char} (h : TokenText text t) (hother : TokenText other u)
    (hfront : text <+: cs) (hfront' : other <+: cs) : t.kind = u.kind := by
  obtain ⟨c, rest, rfl, hc⟩ := h.exists_start
  obtain ⟨d, rest', rfl, hd⟩ := hother.exists_start
  obtain ⟨back, rfl⟩ := hfront
  obtain ⟨rfl, -⟩ := List.cons_prefix_cons.mp hfront'
  exact startsAt_unique hc hd

theorem isBlank_of_isNameChar (h : isNameChar c = true) : isBlank c = false := by
  have hsplit : isNameStart c = true ∨ c.isDigit = true := by
    simpa [isNameChar, isNameStart, Char.isAlphanum, or_right_comm] using h
  rcases hsplit with hstart | hdigit
  · have hcode := code_of_isNameStart hstart
    exact isBlank_of_code (by omega) (by omega)
  · have hcode := code_of_asciiDigit hdigit
    exact isBlank_of_code (by omega) (by omega)

theorem isNameChar_of_isNameStart (h : isNameStart c = true) : isNameChar c = true := by
  simp only [isNameStart, Bool.or_eq_true] at h
  simp only [isNameChar, Char.isAlphanum, Bool.or_eq_true]
  tauto

theorem TokenText.not_blank (h : TokenText text t) (hc : c ∈ text) : isBlank c = false := by
  cases h with
  | number digits =>
    rcases digits.mem hc with hdigit | rfl
    · exact isBlank_of_isDigit hdigit
    · decide
  | name start all =>
    rcases List.mem_cons.mp hc with rfl | hc
    · exact isBlank_of_isNameChar (isNameChar_of_isNameStart start)
    · exact isBlank_of_isNameChar (all c hc)
  | symbol s =>
    obtain rfl := List.mem_singleton.mp hc
    cases s <;> decide

/-! ## The token at the front of a text -/

theorem mantissa_none (h : ∀ c ∈ cs.head?, ¬ (isDigit c = true ∨ c = '.')) :
    Mantissa.scan? cs = none := by
  refine readsLongest_mantissa.eq_none_iff.mpr ?_
  rintro front ⟨back, rfl⟩ ⟨m, hform⟩
  obtain ⟨c, hc, hstart⟩ := hform.starts back
  exact h c hc hstart

theorem mantissa_none_of_startsAt {kind : Token.Kind} (h : kind.StartsAt c.toNat)
    (hkind : kind ≠ .number) (cs : List Char) : Mantissa.scan? (c :: cs) = none := by
  refine mantissa_none fun d hd hstart => hkind ?_
  cases hd
  exact startsAt_unique h (startsAt_number hstart)

theorem next?_number {m : Mantissa} (h : Mantissa.scan? cs = some (m, rest)) :
    Token.next? cs = some (.number m, rest) := by
  rw [Token.next?.eq_def, h]

theorem next?_name (h : isNameStart c = true) (cs : List Char) : Token.next? (c :: cs) =
    some (.name (String.ofList (c :: cs.takeWhile isNameChar)), cs.dropWhile isNameChar) := by
  have hkind : Token.Kind.name.StartsAt c.toNat := code_of_isNameStart h
  rw [Token.next?, mantissa_none_of_startsAt hkind (by decide)]
  exact if_pos h

theorem next?_symbol (s : Symbol) (cs : List Char) :
    Token.next? (s.char :: cs) = some (.symbol s, cs) := by
  rw [Token.next?, mantissa_none_of_startsAt (startsAt_symbol s) (by decide)]
  cases s <;> rfl

theorem next?_sound (h : Token.next? cs = some (t, rest)) :
    ∃ text, TokenText text t ∧ cs = text ++ rest := by
  unfold Token.next? at h
  split at h
  · rename_i hscan
    cases h
    obtain ⟨hform, hsplit⟩ := mantissa_sound hscan
    exact ⟨_, .number hform, hsplit⟩
  · cases cs with
    | nil => cases h
    | cons c cs =>
      dsimp only at h
      split at h
      · rename_i hstart
        cases h
        refine ⟨_, .name hstart fun d hd => List.mem_takeWhile_imp hd, ?_⟩
        rw [List.cons_append, List.takeWhile_append_dropWhile]
      · obtain ⟨s, hs, hread⟩ := Option.map_eq_some_iff.mp h
        cases hread
        obtain rfl : s.char = c := by simpa using List.find?_some hs
        exact ⟨_, .symbol s, rfl⟩

theorem next?_covers (h : TokenText text t) (back : List Char) : ∃ longer u rest,
    Token.next? (text ++ back) = some (u, rest) ∧ text ++ back = longer ++ rest ∧
      text.length ≤ longer.length := by
  cases h with
  | number digits =>
    obtain ⟨longer, m, rest, hread, hsplit, hlength⟩ := readsLongest_mantissa.covers back digits
    exact ⟨longer, _, rest, next?_number hread, hsplit, hlength⟩
  | @name c front start all =>
    refine ⟨c :: (front ++ back).takeWhile isNameChar, _, (front ++ back).dropWhile isNameChar,
      next?_name start _, ?_, ?_⟩
    · rw [List.cons_append, List.cons_append, List.takeWhile_append_dropWhile]
    · rw [List.takeWhile_append_of_pos all]
      simp
  | symbol s => exact ⟨[s.char], _, _, next?_symbol s back, rfl, le_rfl⟩

theorem next?_exact (h : TokenText text t) : Token.next? text = some (t, []) := by
  cases h with
  | number digits => exact next?_number (readsLongest_mantissa.exact digits)
  | name start all =>
    rw [next?_name start, List.takeWhile_eq_self_iff.mpr all, List.dropWhile_eq_nil_iff.mpr all]
  | symbol s => exact next?_symbol s []

theorem readsLongest_token : ReadsLongest TokenText Token.next? where
  sound := next?_sound
  covers := fun back h => next?_covers h back
  exact := next?_exact

/-- The longest text of its kind is the longest token altogether. -/
theorem next?_of_longest (htext : TokenText text t)
    (h : IsLongest (OfKind t.kind) text (text ++ rest)) :
    Token.next? (text ++ rest) = some (t, rest) := by
  refine readsLongest_token.eq_some_iff.mpr ⟨text, ⟨h.starts, ⟨t, htext⟩, ?_⟩, htext, rfl⟩
  rintro other hother ⟨u, hu⟩
  exact h.longest other hother ⟨u, hu, hu.kind_eq htext hother h.starts⟩

theorem longest_of_next? (h : Token.next? cs = some (t, rest)) :
    cs = t.text.toList ++ rest ∧ TokenText t.text.toList t ∧
      IsLongest (OfKind t.kind) t.text.toList cs := by
  obtain ⟨front, hlongest, hform, hsplit⟩ := readsLongest_token.eq_some_iff.mp h
  rw [← hform.eq_text]
  refine ⟨hsplit, hform, hlongest.starts, ⟨t, hform, rfl⟩, ?_⟩
  rintro other hother ⟨u, hu, -⟩
  exact hlongest.longest other hother ⟨u, hu⟩

/-! ## Where no token starts -/

theorem exists_mantissa_iff {rest : List Char} :
    (∃ front, front <+: c :: rest ∧ ∃ m, MantissaText front m) ↔ StartsNumber c rest := by
  constructor
  · rintro ⟨front, ⟨back, hback⟩, m, hform⟩
    cases hform with
    | whole filled all =>
      obtain ⟨d, digits, rfl⟩ := List.exists_cons_of_ne_nil filled
      obtain ⟨rfl, -⟩ := List.cons.inj hback
      exact .inl (all d (List.mem_cons_self ..))
    | pointed filled all after =>
      obtain ⟨d, digits, rfl⟩ := List.exists_cons_of_ne_nil filled
      obtain ⟨rfl, -⟩ := List.cons.inj hback
      exact .inl (all d (List.mem_cons_self ..))
    | fraction filled all =>
      obtain ⟨d, digits, rfl⟩ := List.exists_cons_of_ne_nil filled
      obtain ⟨rfl, rfl⟩ := List.cons.inj hback
      exact .inr ⟨rfl, d, rfl, all d (List.mem_cons_self ..)⟩
  · rintro (hdigit | ⟨rfl, d, hd, hdigit⟩)
    · have hone : AreDigits [c] := by simpa [AreDigits] using hdigit
      exact ⟨[c], ⟨rest, rfl⟩, _, .whole (List.cons_ne_nil _ _) hone⟩
    · obtain ⟨back, rfl⟩ := List.head?_eq_some_iff.mp hd
      have hone : AreDigits [d] := by simpa [AreDigits] using hdigit
      exact ⟨['.', d], ⟨back, rfl⟩, _, .fraction (List.cons_ne_nil _ _) hone⟩

theorem ofChar?_eq_none : Symbol.ofChar? c = none ↔ c ∉ ['+', '-', '*', '/', '(', ')'] := by
  have hchars : Symbol.all.map Symbol.char = ['+', '-', '*', '/', '(', ')'] := rfl
  rw [Symbol.ofChar?, List.find?_eq_none, ← hchars, List.mem_map]
  simp

theorem isNameStart_iff : isNameStart c = true ↔ c.isAlpha = true ∨ c = '_' := by
  simp [isNameStart]

theorem next?_eq_none {rest : List Char} :
    Token.next? (c :: rest) = none ↔ ¬ StartsToken c rest := by
  have hnumber : Mantissa.scan? (c :: rest) = none ↔ ¬ StartsNumber c rest := by
    rw [readsLongest_mantissa.eq_none_iff, ← exists_mantissa_iff]
    simp only [not_exists, not_and]
  unfold StartsToken
  rw [← isNameStart_iff, not_or, not_or, ← ofChar?_eq_none, ← hnumber]
  unfold Token.next?
  cases Mantissa.scan? (c :: rest) with
  | some read => simp
  | none => by_cases hstart : isNameStart c = true <;> simp [hstart]

/-! ## Splitting what is left -/

theorem trimEnd_append {front : List Char} (h : ∀ c ∈ front, isBlank c = false)
    (rest : List Char) : trimEnd isBlank (front ++ rest) = front ++ trimEnd isBlank rest := by
  have hfront : front.reverse.dropWhile isBlank = front.reverse := by
    cases hreverse : front.reverse with
    | nil => rfl
    | cons d ds =>
      have hd : d ∈ front := List.mem_reverse.mp (hreverse ▸ List.mem_cons_self ..)
      simp [h d hd]
  unfold trimEnd
  rw [List.reverse_append, List.dropWhile_append]
  split
  · rename_i hempty
    rw [List.isEmpty_iff.mp hempty, hfront]
    simp
  · simp

theorem trimEnd_starts (cs : List Char) : trimEnd isBlank cs <+: cs := by
  have hsuffix : cs.reverse.dropWhile isBlank <:+ cs.reverse := List.dropWhile_suffix _
  simpa [trimEnd] using List.reverse_prefix.mpr hsuffix

theorem trimEnd_blank (hblank : isBlank c = true) (rest : List Char) :
    trimEnd isBlank (c :: rest) =
      if trimEnd isBlank rest = [] then [] else c :: trimEnd isBlank rest := by
  unfold trimEnd
  rw [List.reverse_cons, List.dropWhile_append]
  cases rest.reverse.dropWhile isBlank with
  | nil => simp [hblank]
  | cons d ds => simp

section

variable {tail : List Char}

theorem tokensFrom_stuck (position : Nat)
    (h : Token.next? ((c :: tail).dropWhile isBlank) = none) :
    tokensFrom position (c :: tail) = .error (.unexpectedCharacter c position) := by
  rw [tokensFrom]
  split
  · rfl
  · rename_i hread
    rw [h] at hread
    cases hread

theorem tokensFrom_token (position : Nat)
    (h : Token.next? ((c :: tail).dropWhile isBlank) = some (t, rest)) :
    ∃ next, tokensFrom position (c :: tail) = (tokensFrom next rest).map (t :: ·) := by
  rw [tokensFrom]
  split
  · rename_i hread
    rw [h] at hread
    cases hread
  · rename_i hread
    rw [h] at hread
    cases hread
    exact ⟨_, rfl⟩

end

theorem suffix_of_next? (h : Token.next? (cs.dropWhile isBlank) = some (t, rest)) : rest <:+ cs := by
  obtain ⟨text, -, hsplit⟩ := next?_sound h
  exact (hsplit ▸ List.suffix_append text rest).trans (List.dropWhile_suffix isBlank)

theorem tokensFrom_error {position : Nat} {e : FormulaError} (h : tokensFrom position cs = .error e) :
    ∃ c offset, e = .unexpectedCharacter c (position + offset) ∧ cs[offset]? = some c := by
  fun_induction tokensFrom position cs with
  | case1 => cases h
  | case2 position c tail =>
    cases h
    exact ⟨c, 0, rfl, rfl⟩
  | case3 position c tail token rest hread ih =>
    rcases bind_eq_error.mp h with h | ⟨row, -, h⟩
    · obtain ⟨d, offset, rfl, hd⟩ := ih h
      have hdrop := List.suffix_iff_eq_drop.mp (suffix_of_next? hread)
      rw [hdrop, List.getElem?_drop] at hd
      exact ⟨d, _, by rw [Nat.add_assoc], hd⟩
    · cases h

theorem tokens_error {s : String} {e : FormulaError} (h : tokens s = .error e) :
    ∃ c position, e = .unexpectedCharacter c position ∧ s.toList[position]? = some c := by
  obtain ⟨c, position, rfl, hc⟩ := tokensFrom_error h
  obtain ⟨blanks, hblanks⟩ := trimEnd_starts s.toList
  refine ⟨c, position, by rw [Nat.zero_add], ?_⟩
  obtain ⟨hlength, -⟩ := List.getElem?_eq_some_iff.mp hc
  rwa [← hblanks, List.getElem?_append_left hlength]

/-- The tokens of a text that no blank ends. Where it starts makes no difference to them. -/
def row? (cs : List Char) : Option (List Token) := (tokensFrom 0 cs).toOption

theorem toOption_tokensFrom (position : Nat) (cs : List Char) :
    (tokensFrom position cs).toOption = row? cs := by
  unfold row?
  generalize 0 = other
  fun_induction tokensFrom position cs generalizing other with
  | case1 => rw [tokensFrom]
  | case2 position c tail hread => rw [tokensFrom_stuck other hread]; rfl
  | case3 position c tail token rest hread ih =>
    obtain ⟨next, hnext⟩ := tokensFrom_token other hread
    rw [hnext, toOption_map, ← ih next, ← toOption_map]
    rfl

theorem row?_nil : row? [] = some [] := by
  rw [row?, tokensFrom]
  rfl

theorem row?_cons (tail : List Char) : row? (c :: tail) =
    (Token.next? ((c :: tail).dropWhile isBlank)).bind fun read =>
      (row? read.2).map (read.1 :: ·) := by
  cases hread : Token.next? ((c :: tail).dropWhile isBlank) with
  | none => rw [row?, tokensFrom_stuck 0 hread]; rfl
  | some read =>
    obtain ⟨next, hnext⟩ := tokensFrom_token 0 hread
    rw [row?, hnext, toOption_map, toOption_tokensFrom]
    rfl

def split? (cs : List Char) : Option (List Token) := row? (trimEnd isBlank cs)

theorem split?_nil : split? [] = some [] := row?_nil

theorem split?_blank (hblank : isBlank c = true) (rest : List Char) :
    split? (c :: rest) = split? rest := by
  unfold split?
  rw [trimEnd_blank hblank]
  -- If there are only blanks, all of them are cut off.
  cases trimEnd isBlank rest with
  | nil => rfl
  | cons d ds =>
    rw [if_neg (List.cons_ne_nil d ds), row?_cons, row?_cons, List.dropWhile_cons_of_pos hblank]

theorem split?_stuck (hblank : isBlank c = false) (h : ¬ StartsToken c rest) :
    split? (c :: rest) = none := by
  have hone : ∀ d ∈ [c], isBlank d = false := by simpa using hblank
  have htrim : trimEnd isBlank (c :: rest) = c :: trimEnd isBlank rest := trimEnd_append hone rest
  have hnone : Token.next? (c :: trimEnd isBlank rest) = none := by
    refine readsLongest_token.eq_none_iff.mpr fun front hfront => ?_
    refine readsLongest_token.eq_none_iff.mp (next?_eq_none.mpr h) front (hfront.trans ?_)
    exact List.cons_prefix_cons.mpr ⟨rfl, trimEnd_starts rest⟩
  rw [split?, htrim, row?_cons, List.dropWhile_cons_of_neg (by simp [hblank]), hnone]
  rfl

theorem split?_token (htext : TokenText text t)
    (h : IsLongest (OfKind t.kind) text (text ++ rest)) :
    split? (text ++ rest) = (split? rest).map (t :: ·) := by
  have hshorter : text ++ trimEnd isBlank rest <+: text ++ rest :=
    (List.prefix_append_right_inj text).mpr (trimEnd_starts rest)
  -- The blanks that are cut off at the end were no part of the token.
  have hread : Token.next? (text ++ trimEnd isBlank rest) = some (t, trimEnd isBlank rest) :=
    next?_of_longest htext
      ⟨List.prefix_append .., h.formed, fun other hother => h.longest other (hother.trans hshorter)⟩
  rw [split?, trimEnd_append fun c hc => htext.not_blank hc]
  obtain ⟨c, front, rfl, -⟩ := htext.exists_start
  have hblank : isBlank c = false := htext.not_blank (List.mem_cons_self ..)
  rw [List.cons_append] at hread ⊢
  rw [row?_cons, List.dropWhile_cons_of_neg (by simp [hblank]), hread]
  rfl

/-! ## The scan -/

theorem Arrives.split? (h : Arrives cs row rest) :
    split? cs = (Formula.split? rest).map (row ++ ·) := by
  induction h with
  | start => simp
  | blank before hblank ih => rw [ih, split?_blank hblank]
  | token before htext hlongest ih =>
    rw [ih, split?_token htext hlongest, Option.map_map]
    congr 1
    funext others
    simp

theorem Arrives.trans {more : List Token} {mid : List Char} (h : Arrives cs row mid)
    (hmore : Arrives mid more rest) : Arrives cs (row ++ more) rest := by
  induction hmore with
  | start => rwa [List.append_nil]
  | blank before hblank ih => exact ih.blank hblank
  | token before htext hlongest ih =>
    rw [← List.append_assoc]
    exact ih.token htext hlongest

def Stops (cs : List Char) : Prop :=
  ∃ c rest, cs = c :: rest ∧ isBlank c = false ∧ ¬ StartsToken c rest

theorem Arrives.exists_end (h : Arrives cs row rest) :
    ∃ found left, Arrives cs found left ∧ (left = [] ∨ Stops left) := by
  -- Each blank and each token leaves less of the text.
  induction hlength : rest.length using Nat.strong_induction_on generalizing row rest with
  | _ length ih =>
    cases rest with
    | nil => exact ⟨row, [], h, .inl rfl⟩
    | cons c tail =>
      by_cases hblank : isBlank c = true
      · exact ih tail.length (by simp [← hlength]) (h.blank hblank) rfl
      · cases hread : Token.next? (c :: tail) with
        | none =>
          exact ⟨row, c :: tail, h, .inr ⟨c, tail, rfl, by simpa using hblank,
            next?_eq_none.mp hread⟩⟩
        | some read =>
          obtain ⟨hsplit, htext, hlongest⟩ := longest_of_next? hread
          rw [hsplit] at h hlongest
          have hshorter : read.2.length < length := hlength ▸ Token.next?_length hread
          exact ih _ hshorter (h.token htext hlongest) rfl

theorem Arrives.texts (h : Arrives cs row rest) :
    row.flatMap (fun t => t.text.toList) ++ rest.filter (fun c => !isBlank c) =
      cs.filter fun c => !isBlank c := by
  induction h with
  | start => simp
  | blank before hblank ih => rw [← ih]; simp [hblank]
  | @token row t rest before htext hlongest ih =>
    have hkept : t.text.toList.filter (fun c => !isBlank c) = t.text.toList :=
      List.filter_eq_self.mpr fun c hc => by simp [htext.not_blank hc]
    rw [← ih, List.filter_append, hkept]
    simp

theorem Arrives.tokenText (h : Arrives cs row rest) : ∀ t ∈ row, TokenText t.text.toList t := by
  induction h with
  | start => nofun
  | blank before hblank ih => exact ih
  | token before htext hlongest ih =>
    intro u hu
    rcases List.mem_append.mp hu with hu | hu
    · exact ih u hu
    · cases List.mem_singleton.mp hu
      exact htext

theorem tokens_eq_ok_iff {s : String} : tokens s = .ok row ↔ Arrives s.toList row [] := by
  have htokens : (tokens s).toOption = split? s.toList := rfl
  constructor
  · intro h
    obtain ⟨found, left, hfound, rfl | ⟨c, rest, rfl, hblank, hstop⟩⟩ := Arrives.start.exists_end
    · rw [h, hfound.split?, split?_nil] at htokens
      have hrow : row = found := by simpa [Except.toOption] using htokens
      exact hrow ▸ hfound
    · rw [h, hfound.split?, split?_stuck hblank hstop] at htokens
      cases htokens
  · intro h
    rw [h.split?, split?_nil] at htokens
    exact ok_of_toOption (by simpa using htokens)

theorem tokens_eq_error_iff {s : String} : (∃ e, tokens s = .error e) ↔
    ∃ row c rest, Arrives s.toList row (c :: rest) ∧ isBlank c = false ∧ ¬ StartsToken c rest := by
  constructor
  · rintro ⟨e, he⟩
    obtain ⟨found, left, hfound, rfl | ⟨c, rest, rfl, hstop⟩⟩ := Arrives.start.exists_end
    · rw [tokens_eq_ok_iff.mpr hfound] at he
      cases he
    · exact ⟨found, c, rest, hfound, hstop⟩
  · rintro ⟨found, c, rest, hfound, hblank, hstop⟩
    cases htokens : tokens s with
    | error e => exact ⟨e, rfl⟩
    | ok row =>
      have hsplit := (tokens_eq_ok_iff.mp htokens).split?
      rw [hfound.split?, split?_stuck hblank hstop, split?_nil] at hsplit
      cases hsplit

/-! ## Single spaces -/

theorem TokenText.longest (h : TokenText text t) (hrest : ∀ c ∈ rest.head?, isBlank c = true) :
    IsLongest (OfKind t.kind) text (text ++ rest) := by
  refine ⟨List.prefix_append .., ⟨t, h, rfl⟩, ?_⟩
  rintro other hother ⟨u, hu, -⟩
  -- A longer token would have the blank in it.
  by_contra hlength
  obtain ⟨more, rfl⟩ := List.prefix_of_prefix_length_le (List.prefix_append text rest) hother
    (by omega)
  cases more with
  | nil => simp at hlength
  | cons c more =>
    obtain ⟨back, rfl⟩ := (List.prefix_append_right_inj text).mp hother
    have hblank : isBlank c = false := hu.not_blank (by simp)
    rw [hrest c rfl] at hblank
    cases hblank

theorem Arrives.front (h : TokenText t.text.toList t) (hrest : ∀ c ∈ rest.head?, isBlank c = true) :
    Arrives (t.text.toList ++ rest) [t] rest :=
  Arrives.start.token h (h.longest hrest)

theorem arrives_spaced (h : ∀ t ∈ row, TokenText t.text.toList t) :
    Arrives (" ".intercalate (row.map Token.text)).toList row [] := by
  induction row with
  | nil => exact .start
  | cons t row ih =>
    have htext := h t (List.mem_cons_self ..)
    have hmore := ih fun u hu => h u (List.mem_cons_of_mem _ hu)
    cases row with
    | nil =>
      have hend : Arrives (t.text.toList ++ []) [t] [] := .front htext nofun
      rwa [List.append_nil] at hend
    | cons u row =>
      have hspace : isBlank ' ' = true := by decide
      rw [List.map_cons] at hmore ⊢
      rw [List.map_cons, String.intercalate_cons_cons, String.toList_append, String.toList_append,
        List.append_assoc]
      -- The space ends the first token and is passed over.
      refine Arrives.trans (.blank (.front htext ?_) hspace) hmore
      intro c hc
      cases hc
      exact hspace

/-- The tokens of a text are what a scan of it finds. They hold every character but the blanks, and
with single spaces between them they are found again. There are none only if the scan arrives where
no token starts, and the error names a character of the text and its place. -/
theorem tokens_hold_the_text (s : String) :
    (∀ row, tokens s = .ok row ↔ Arrives s.toList row []) ∧
    (∀ row, tokens s = .ok row →
      row.flatMap (fun t => t.text.toList) = s.toList.filter (fun c => !isBlank c) ∧
      tokens (" ".intercalate (row.map Token.text)) = .ok row) ∧
    ((∃ e, tokens s = .error e) ↔
      ∃ row c rest, Arrives s.toList row (c :: rest) ∧ isBlank c = false ∧
        ¬ StartsToken c rest) ∧
    (∀ e, tokens s = .error e →
      ∃ c position, e = .unexpectedCharacter c position ∧ s.toList[position]? = some c) := by
  refine ⟨fun row => tokens_eq_ok_iff, fun row hrow => ?_, tokens_eq_error_iff,
    fun e => tokens_error⟩
  have hscan := tokens_eq_ok_iff.mp hrow
  have htexts := hscan.texts
  rw [List.filter_nil, List.append_nil] at htexts
  exact ⟨htexts, tokens_eq_ok_iff.mpr (arrives_spaced hscan.tokenText)⟩

/-- Numbers that end in a point or start with one, a digit of another script, and few blanks. -/
def ledge : String := "\t3.*(w_1 +.5)-٢x "

def ledgeTokens : List Token :=
  [.number ⟨['3'], some []⟩, .symbol .times, .symbol .opening, .name "w_1", .symbol .plus,
    .number ⟨[], some ['5']⟩, .symbol .closing, .symbol .minus, .number ⟨['٢'], none⟩, .name "x"]

theorem ledge_is_split :
    tokens ledge = .ok ledgeTokens ∧ Arrives ledge.toList ledgeTokens [] ∧
      tokens (" ".intercalate (ledgeTokens.map Token.text)) = .ok ledgeTokens ∧
      " ".intercalate (ledgeTokens.map Token.text) = "3. * ( w_1 + .5 ) - ٢ x" ∧
      ∃ row c rest, Arrives "2 * .x".toList row (c :: rest) ∧ isBlank c = false ∧
        ¬ StartsToken c rest := by
  have hledge : tokens ledge = .ok ledgeTokens := by decide +kernel
  have herror : tokens "2 * .x" = .error (.unexpectedCharacter ' ' 3) := by decide +kernel
  obtain ⟨hscan, htext, -⟩ := tokens_hold_the_text ledge
  obtain ⟨-, -, hstops, -⟩ := tokens_hold_the_text "2 * .x"
  exact ⟨hledge, (hscan _).mp hledge, (htext _ hledge).2, by decide +kernel, hstops.mp ⟨_, herror⟩⟩

end Quotation.Formula
