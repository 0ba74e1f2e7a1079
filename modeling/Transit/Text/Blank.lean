/-!
# Blank characters

A character is blank when it has the Unicode property `White_Space`.  Texts are
trimmed of blank characters before a service time is read from them, and a name
made of nothing but blank characters is no name at all.

Texts are handled as lists of characters, so that every rule about them is a
recursion over the characters themselves.
-/

namespace Transit.Text

/-- The characters with the Unicode property `White_Space`. -/
def isBlank (character : Char) : Bool :=
  let code := character.toNat
  (0x09 ≤ code && code ≤ 0x0D) || code == 0x20 || code == 0x85 || code == 0xA0 ||
    code == 0x1680 || (0x2000 ≤ code && code ≤ 0x200A) || code == 0x2028 ||
    code == 0x2029 || code == 0x202F || code == 0x205F || code == 0x3000

/-- Drop the blank characters a text begins with. -/
def trimStart (characters : List Char) : List Char :=
  characters.dropWhile isBlank

/-- Drop the blank characters at both ends of a text. -/
def trim (characters : List Char) : List Char :=
  (trimStart (trimStart characters).reverse).reverse

/-- A text of blank characters only; the empty text is one. -/
def IsBlankText (text : String) : Prop :=
  ∀ character ∈ text.toList, isBlank character = true

instance (text : String) : Decidable (IsBlankText text) :=
  List.decidableBAll (fun character => isBlank character = true) text.toList

@[simp]
theorem trimStart_nil : trimStart [] = [] := rfl

/-- Trimming at the front leaves a text that is empty or begins with a mark. -/
theorem isBlank_head_trimStart {characters : List Char} {first : Char}
    {rest : List Char} (trimmed : trimStart characters = first :: rest) :
    isBlank first = false := by
  induction characters with
  | nil => simp at trimmed
  | cons character others ih =>
      by_cases blank : isBlank character = true
      · exact ih (by simpa [trimStart, List.dropWhile_cons, blank] using trimmed)
      · have same : character = first ∧ others = rest := by
          simpa [trimStart, List.dropWhile_cons, blank] using trimmed
        simpa [same.1] using blank

/-- A text that does not begin with a blank stays as it is. -/
theorem trimStart_eq_self {characters : List Char}
    (opens : ∀ first ∈ characters.head?, isBlank first = false) :
    trimStart characters = characters := by
  cases characters with
  | nil => rfl
  | cons first rest => exact List.dropWhile_cons_of_neg (by simp [opens first rfl])

/-- A text with a mark at either end stays as it is. -/
theorem trim_eq_self {characters : List Char}
    (opens : ∀ first ∈ characters.head?, isBlank first = false)
    (ends : ∀ last ∈ characters.getLast?, isBlank last = false) :
    trim characters = characters := by
  rw [trim, trimStart_eq_self opens, trimStart_eq_self (by rwa [List.head?_reverse]),
    List.reverse_reverse]

/-- Digits are marks. -/
theorem isBlank_of_isDigit {character : Char} (digit : character.isDigit = true) :
    isBlank character = false := by
  obtain ⟨first, last⟩ := Char.isDigit_iff_toNat.mp digit
  have first : 48 ≤ character.toNat := first
  have last : character.toNat ≤ 57 := last
  simp only [isBlank, Bool.or_eq_false_iff, Bool.and_eq_false_iff, decide_eq_false_iff_not,
    beq_eq_false_iff_ne]
  omega

end Transit.Text
