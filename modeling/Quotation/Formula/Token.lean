import Quotation.Formula.Error

/-!
# Tokens of a formula

A formula is a row of numbers, names and symbols with blanks between them. Each token is the longest
one that starts at its place.
-/

namespace Quotation.Formula

open Number Text

inductive Symbol where
  | plus
  | minus
  | times
  | divide
  | opening
  | closing
  deriving DecidableEq

def Symbol.char : Symbol → Char
  | plus => '+'
  | minus => '-'
  | times => '*'
  | divide => '/'
  | opening => '('
  | closing => ')'

def Symbol.all : List Symbol := [plus, minus, times, divide, opening, closing]

def Symbol.ofChar? (c : Char) : Option Symbol := all.find? (·.char == c)

inductive Token where
  | number (digits : Mantissa)
  | name (name : String)
  | symbol (s : Symbol)
  deriving DecidableEq

def Token.text : Token → String
  | number digits => digits.text
  | name s => s
  | symbol s => s.char.toString

/-! ## Characters -/

def isNameStart (c : Char) : Bool := c.isAlpha || c == '_'

def isNameChar (c : Char) : Bool := c.isAlphanum || c == '_'

/-- The characters of a formula without names. -/
def isArithmetic (c : Char) : Bool :=
  c.isDigit || c == '.' || (Symbol.ofChar? c).isSome || isBlank c

def keepArithmetic (s : String) : String := String.ofList (s.toList.filter isArithmetic)

def keepFormula (s : String) : String :=
  String.ofList (s.toList.filter fun c => isArithmetic c || isNameChar c)

/-! ## Splitting -/

def Token.next? (cs : List Char) : Option (Token × List Char) :=
  match Mantissa.scan? cs with
  | some (digits, rest) => some (.number digits, rest)
  | none =>
    match cs with
    | [] => none
    | c :: rest =>
      if isNameStart c then
        some (.name (String.ofList (c :: rest.takeWhile isNameChar)), rest.dropWhile isNameChar)
      else
        (Symbol.ofChar? c).map fun s => (.symbol s, rest)

theorem scanDigits_length (cs : List Char) :
    (scanDigits cs).1.length + (scanDigits cs).2.length = cs.length := by
  rw [← List.length_append]
  simp [scanDigits, List.takeWhile_append_dropWhile]

theorem dropWhile_length_le (p : Char → Bool) (cs : List Char) :
    (cs.dropWhile p).length ≤ cs.length := (List.dropWhile_sublist p).length_le

theorem Mantissa.scan?_length {cs rest : List Char} {m : Mantissa}
    (h : Mantissa.scan? cs = some (m, rest)) : rest.length < cs.length := by
  have whole := scanDigits_length cs
  unfold Mantissa.scan? at h
  split at h
  · next afterPoint heq =>
    have fraction := scanDigits_length afterPoint
    dsimp only at h
    split at h
    · simp at h
    · simp only [Option.some.injEq, Prod.mk.injEq] at h
      obtain ⟨_, rfl⟩ := h
      rw [heq] at whole
      simp at whole
      omega
  · dsimp only at h
    split at h
    · simp at h
    · next hne =>
      have : 0 < (scanDigits cs).1.length := by
        simpa [List.length_pos_iff] using hne
      simp only [Option.some.injEq, Prod.mk.injEq] at h
      obtain ⟨_, rfl⟩ := h
      omega

theorem Token.next?_length {cs rest : List Char} {t : Token}
    (h : Token.next? cs = some (t, rest)) : rest.length < cs.length := by
  unfold Token.next? at h
  split at h
  · next hscan =>
    simp at h
    exact h.2 ▸ Mantissa.scan?_length hscan
  · split at h
    · simp at h
    · next c tail _ =>
      split at h
      · simp at h
        have := dropWhile_length_le isNameChar tail
        simp [← h.2]
        omega
      · simp at h
        obtain ⟨_, _, _, rfl⟩ := h
        simp

/-- The tokens of a text that starts after `position` characters. Blanks stand before a token and
count to its place. -/
def tokensFrom (position : Nat) : List Char → Except FormulaError (List Token)
  | [] => .ok []
  | c :: tail =>
    match _h : Token.next? ((c :: tail).dropWhile isBlank) with
    | none => .error (.unexpectedCharacter c position)
    | some (token, rest) => do
      return token :: (← tokensFrom (position + ((c :: tail).length - rest.length)) rest)
termination_by cs => cs.length
decreasing_by
  exact Nat.lt_of_lt_of_le (Token.next?_length _h) (dropWhile_length_le isBlank _)

/-- The tokens of a text. Blanks at its end do not count. -/
def tokens (s : String) : Except FormulaError (List Token) :=
  tokensFrom 0 (trimEnd isBlank s.toList)

end Quotation.Formula
