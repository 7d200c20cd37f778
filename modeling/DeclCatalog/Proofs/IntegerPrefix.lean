import DeclCatalog.Proofs.TextBytes
import DeclCatalog.Text.IntPrefix
import Mathlib.Data.List.TakeWhile

/-!
# Reading an integer at the beginning of a text

What integer a text begins with can be said without reading it: the text falls into blanks, a sign,
digits and a rest in one way only. Here the integer that is read is compared with the value of these
digits. The digits are read before the sign is put to them, so they have to be a signed word by
themselves. There is one word that is not the negative of another, the least one, and it is the only
value that is missed.

- `IntReading`: the four parts of a text, each as long as it can be.
- `IntReading.nonempty`, `IntReading.unique`: every text falls into such parts in one way.
- `IntReading.intPrefix?_eq`: what is read, by the parts.
- `signBytes`, `digitBytes`, `IntReading.CutsBetweenCharacters`: a reader that counts bytes cuts the
  text between two characters.
- `ReadsExactly`: what is read is the value of the digits if it is a signed word, and nothing if it
  is none.
- `intPrefix?_exact_but_for_least`: **an integer is read exactly unless it is the least word**.
- `intPrefix?_misses_least`: the least word is not read.
-/

namespace DeclCatalog.Text

/-- A text in four parts: its leading blanks, one sign or none, the digits after it, and the rest.
No part can be made longer. -/
@[ext] structure IntReading (raw : String) where
  blanks : List Char
  sign : List Char
  digits : List Char
  rest : List Char
  split : raw.toList = blanks ++ (sign ++ (digits ++ rest))
  isBlank_of_mem : ∀ c ∈ blanks, isBlank c = true
  isBlank_head : ∀ c ∈ (sign ++ (digits ++ rest)).head?, isBlank c = false
  sign_eq : sign = [] ∨ sign = ['-'] ∨ sign = ['+']
  unsigned_head : sign = [] → ∀ c ∈ (digits ++ rest).head?, c ≠ '-' ∧ c ≠ '+'
  isDigit_of_mem : ∀ c ∈ digits, c.isDigit = true
  isDigit_head : ∀ c ∈ rest.head?, c.isDigit = false

/-- Where a list goes over from what is in a class to what is not, its longest run ends. -/
theorem takeWhile_append_of_head {α : Type} {p : α → Bool} {as bs : List α}
    (has : ∀ a ∈ as, p a = true) (hbs : ∀ b ∈ bs.head?, p b = false) :
    (as ++ bs).takeWhile p = as ∧ (as ++ bs).dropWhile p = bs := by
  rw [List.takeWhile_append_of_pos has, List.dropWhile_append_of_pos has]
  cases bs with
  | nil => exact ⟨List.append_nil as, rfl⟩
  | cons b bs =>
    have hb : p b = false := hbs b rfl
    rw [List.takeWhile_cons, List.dropWhile_cons, hb]
    exact ⟨List.append_nil as, rfl⟩

theorem head?_dropWhile_eq_false {α : Type} {p : α → Bool} (as : List α) :
    ∀ a ∈ (as.dropWhile p).head?, p a = false := by
  intro a ha
  have hnot := List.head?_dropWhile_not p as
  rw [ha] at hnot
  simpa using hnot

namespace IntReading

variable {raw : String}

/-- The number that the digits denote. -/
def magnitude (p : IntReading raw) : Nat :=
  Nat.ofDigitChars 10 p.digits 0

/-- The number that the sign and the digits denote. -/
def value (p : IntReading raw) : Int :=
  if p.sign = ['-'] then -(p.magnitude : Int) else p.magnitude

/-! ## Every text falls into parts in one way -/

theorem dropWhile_isBlank (p : IntReading raw) :
    raw.toList.dropWhile isBlank = p.sign ++ (p.digits ++ p.rest) := by
  rw [p.split]
  exact (takeWhile_append_of_head p.isBlank_of_mem p.isBlank_head).2

theorem splitSign_eq (p : IntReading raw) :
    splitSign (p.sign ++ (p.digits ++ p.rest)) = (decide (p.sign = ['-']), p.digits ++ p.rest) := by
  obtain hsign | hsign | hsign := p.sign_eq
  · have hhead := p.unsigned_head hsign
    rw [hsign, List.nil_append]
    generalize p.digits ++ p.rest = cs at hhead ⊢
    cases cs with
    | nil => rfl
    | cons c cs =>
      obtain ⟨hminus, hplus⟩ := hhead c rfl
      rw [splitSign]
      · rfl
      · rintro rest heq
        exact hminus (List.cons.inj heq).1
      · rintro rest heq
        exact hplus (List.cons.inj heq).1
  · rw [hsign]
    rfl
  · rw [hsign]
    rfl

theorem takeWhile_isDigit (p : IntReading raw) :
    (p.digits ++ p.rest).takeWhile Char.isDigit = p.digits ∧
      (p.digits ++ p.rest).dropWhile Char.isDigit = p.rest :=
  takeWhile_append_of_head p.isDigit_of_mem p.isDigit_head

/-- Every text falls into such parts. -/
theorem nonempty (raw : String) : Nonempty (IntReading raw) := by
  have hblanks : ∀ c ∈ raw.toList.takeWhile isBlank, isBlank c = true :=
    fun c hc => List.mem_takeWhile_imp hc
  have hhead := head?_dropWhile_eq_false (p := isBlank) raw.toList
  have hsplit := List.takeWhile_append_dropWhile (p := isBlank) (l := raw.toList)
  generalize raw.toList.dropWhile isBlank = s at hhead hsplit
  -- once the sign is known, the digits are the longest run after it
  have hparts : ∀ sign t, s = sign ++ t → (sign = [] ∨ sign = ['-'] ∨ sign = ['+']) →
      (sign = [] → ∀ c ∈ t.head?, c ≠ '-' ∧ c ≠ '+') → Nonempty (IntReading raw) := by
    intro sign t hs hsign hunsigned
    have ht := List.takeWhile_append_dropWhile (p := Char.isDigit) (l := t)
    exact ⟨{
      blanks := raw.toList.takeWhile isBlank
      sign
      digits := t.takeWhile Char.isDigit
      rest := t.dropWhile Char.isDigit
      split := by rw [ht, ← hs, hsplit]
      isBlank_of_mem := hblanks
      isBlank_head := by rwa [ht, ← hs]
      sign_eq := hsign
      unsigned_head := by rwa [ht]
      isDigit_of_mem := fun c hc => List.mem_takeWhile_imp hc
      isDigit_head := head?_dropWhile_eq_false t }⟩
  by_cases hminus : s.head? = some '-'
  · obtain ⟨t, rfl⟩ := List.head?_eq_some_iff.1 hminus
    exact hparts ['-'] t rfl (.inr (.inl rfl)) (fun h => absurd h (by decide))
  by_cases hplus : s.head? = some '+'
  · obtain ⟨t, rfl⟩ := List.head?_eq_some_iff.1 hplus
    exact hparts ['+'] t rfl (.inr (.inr rfl)) (fun h => absurd h (by decide))
  · refine hparts [] s rfl (.inl rfl) fun _ c hc => ⟨?_, ?_⟩
    · rintro rfl
      exact hminus hc
    · rintro rfl
      exact hplus hc

/-- There is one way only in which a text falls into such parts. -/
theorem unique (p q : IntReading raw) : p = q := by
  have hafter : p.sign ++ (p.digits ++ p.rest) = q.sign ++ (q.digits ++ q.rest) := by
    rw [← p.dropWhile_isBlank, q.dropWhile_isBlank]
  have hunsigned : p.digits ++ p.rest = q.digits ++ q.rest := by
    have hsplit := p.splitSign_eq
    rw [hafter, q.splitSign_eq] at hsplit
    exact (congrArg Prod.snd hsplit).symm
  have hblanks : p.blanks = q.blanks := by
    have hsplit := p.split
    rw [q.split, hafter] at hsplit
    exact (List.append_cancel_right hsplit).symm
  have hsign : p.sign = q.sign := by
    rw [hunsigned] at hafter
    exact List.append_cancel_right hafter
  have hdigits : p.digits = q.digits := by
    rw [← p.takeWhile_isDigit.1, hunsigned, q.takeWhile_isDigit.1]
  have hrest : p.rest = q.rest := by
    rw [← p.takeWhile_isDigit.2, hunsigned, q.takeWhile_isDigit.2]
  exact IntReading.ext hblanks hsign hdigits hrest

/-! ## What is read -/

/-- What is read is told by the parts of a text. -/
theorem intPrefix?_eq (p : IntReading raw) :
    intPrefix? raw =
      if p.digits = [] ∨ Word.signedBound ≤ p.magnitude then none
      else some (Int64.ofInt p.value) := by
  have hvalue : decimalValue p.digits = p.magnitude := rfl
  unfold intPrefix?
  rw [p.dropWhile_isBlank, p.splitSign_eq]
  dsimp only
  rw [p.takeWhile_isDigit.1, hvalue, value]
  by_cases hnone : p.digits = [] ∨ Word.signedBound ≤ p.magnitude
  · rw [if_pos hnone, if_pos (by simpa using hnone)]
  · rw [if_neg hnone, if_neg (by simpa using hnone)]
    by_cases hminus : p.sign = ['-']
    · rw [if_pos hminus, if_pos (decide_eq_true hminus)]
    · rw [if_neg hminus, if_neg (by simpa using hminus)]

/-- Without digits there is no number. -/
theorem magnitude_of_digits_eq_nil {p : IntReading raw} (h : p.digits = []) : p.magnitude = 0 := by
  rw [magnitude, h]
  rfl

theorem value_cases (p : IntReading raw) :
    p.value = -(p.magnitude : Int) ∨ p.value = p.magnitude := by
  unfold value
  split
  · exact .inl rfl
  · exact .inr rfl

theorem toInt_ofInt_value {p : IntReading raw} (h : p.magnitude < Word.signedBound) :
    (Int64.ofInt p.value).toInt = p.value := by
  have hvalue := p.value_cases
  have hbound : Word.signedBound = 9223372036854775808 := rfl
  exact Int64.toInt_ofInt_of_le (by omega) (by omega)

/-- A word is read if and only if there are digits, these are a signed word by themselves, and the
word is their value with the sign. -/
theorem intPrefix?_eq_some_iff (p : IntReading raw) (v : Int64) :
    intPrefix? raw = some v ↔
      p.digits ≠ [] ∧ p.magnitude < Word.signedBound ∧ v.toInt = p.value := by
  rw [p.intPrefix?_eq]
  by_cases hnone : p.digits = [] ∨ Word.signedBound ≤ p.magnitude
  · rw [if_pos hnone]
    constructor
    · intro h
      cases h
    · rintro ⟨hdigits, hlt, -⟩
      obtain hnil | hge := hnone
      · exact absurd hnil hdigits
      · exact absurd hlt (Nat.not_lt_of_le hge)
  · rw [if_neg hnone, Option.some_inj]
    obtain ⟨hdigits, hlt⟩ := not_or.1 hnone
    have hexact := toInt_ofInt_value (Nat.lt_of_not_le hlt)
    constructor
    · rintro rfl
      exact ⟨hdigits, Nat.lt_of_not_le hlt, hexact⟩
    · rintro ⟨-, -, hv⟩
      rw [← Int64.toInt_inj, hexact, hv]

theorem intPrefix?_eq_none_iff (p : IntReading raw) :
    intPrefix? raw = none ↔ p.digits = [] ∨ Word.signedBound ≤ p.magnitude := by
  rw [p.intPrefix?_eq]
  split <;> simp_all

end IntReading

/-! ## Readers that count bytes -/

/-- The number of bytes of a sign: one if the first byte is that of a sign. -/
def signBytes (s : String) : Nat :=
  if (bytes s).head? = some 45 ∨ (bytes s).head? = some 43 then 1 else 0

/-- The number of bytes at the beginning of a text that are digits. -/
def digitBytes (s : String) : Nat :=
  ((bytes s).takeWhile fun b => 48 ≤ b && b ≤ 57).length

/-- Where a reader cuts off the sign and the digits by counting bytes, it cuts between two
characters, and it cuts off what are the sign and the digits. -/
structure IntReading.CutsBetweenCharacters {raw : String} (p : IntReading raw) : Prop where
  sign_bytes : signBytes (String.ofList (p.sign ++ (p.digits ++ p.rest))) = p.sign.length
  sign_valid : String.Pos.Raw.IsValid (String.ofList (p.sign ++ (p.digits ++ p.rest)))
    ⟨signBytes (String.ofList (p.sign ++ (p.digits ++ p.rest)))⟩
  digit_bytes : digitBytes (String.ofList (p.digits ++ p.rest)) = p.digits.length
  digit_valid : String.Pos.Raw.IsValid (String.ofList (p.digits ++ p.rest))
    ⟨digitBytes (String.ofList (p.digits ++ p.rest))⟩

namespace IntReading

variable {raw : String}

theorem signBytes_eq (p : IntReading raw) :
    signBytes (String.ofList (p.sign ++ (p.digits ++ p.rest))) = p.sign.length := by
  have hminus := head?_bytes_ofList_eq_some_iff (a := '-') (by decide)
    (p.sign ++ (p.digits ++ p.rest))
  have hplus := head?_bytes_ofList_eq_some_iff (a := '+') (by decide)
    (p.sign ++ (p.digits ++ p.rest))
  unfold signBytes
  obtain hsign | hsign | hsign := p.sign_eq
  · have hhead := p.unsigned_head hsign
    rw [hsign, List.nil_append] at hminus hplus ⊢
    refine if_neg ?_
    rintro (h | h)
    · exact (hhead '-' (hminus.1 h)).1 rfl
    · exact (hhead '+' (hplus.1 h)).2 rfl
  · rw [hsign] at hminus ⊢
    exact if_pos (.inl (hminus.2 rfl))
  · rw [hsign] at hplus ⊢
    exact if_pos (.inr (hplus.2 rfl))

theorem digitBytes_eq (p : IntReading raw) :
    digitBytes (String.ofList (p.digits ++ p.rest)) = p.digits.length := by
  have hbelow : ∀ c : Char, c.isDigit = true → c.toNat < 128 := by
    intro c hc
    have hle := (Char.isDigit_iff_toNat.1 hc).2
    exact Nat.lt_of_le_of_lt hle (by decide)
  have hlength := length_takeWhile_bytes_ofList (p := Char.isDigit)
    (q := fun b => 48 ≤ b && b ≤ 57) hbelow ?_ ?_ (p.digits ++ p.rest)
  · rw [p.takeWhile_isDigit.1] at hlength
    exact hlength
  · intro c hc
    rw [Bool.eq_iff_iff, Char.isDigit_iff_toNat]
    simp only [Bool.and_eq_true, decide_eq_true_eq, UInt8.le_iff_toNat_le, UInt8.toNat_ofNat']
    show 48 ≤ c.toNat % 256 ∧ c.toNat % 256 ≤ 57 ↔ 48 ≤ c.toNat ∧ c.toNat ≤ 57
    rw [Nat.mod_eq_of_lt (by omega)]
  · intro b hb
    have hnot : ¬ b ≤ 57 := by
      rw [UInt8.le_iff_toNat_le]
      show ¬ b.toNat ≤ 57
      omega
    simp [hnot]

theorem cutsBetweenCharacters (p : IntReading raw) : p.CutsBetweenCharacters := by
  have hsign : ∀ c ∈ p.sign, c.toNat < 128 := by
    obtain hsign | hsign | hsign := p.sign_eq
    · rw [hsign]
      exact List.forall_mem_nil _
    · rw [hsign]
      exact List.forall_mem_singleton.2 (by decide)
    · rw [hsign]
      exact List.forall_mem_singleton.2 (by decide)
  have hdigits : ∀ c ∈ p.digits, c.toNat < 128 := by
    intro c hc
    have hle := (Char.isDigit_iff_toNat.1 (p.isDigit_of_mem c hc)).2
    exact Nat.lt_of_le_of_lt hle (by decide)
  refine ⟨p.signBytes_eq, ?_, p.digitBytes_eq, ?_⟩
  · rw [p.signBytes_eq]
    exact isValid_of_ascii hsign (p.digits ++ p.rest)
  · rw [p.digitBytes_eq]
    exact isValid_of_ascii hdigits p.rest

end IntReading

/-! ## The range of what is read -/

/-- What is read is the value of the digits with the sign if there are digits and the value is a
signed word, and nothing otherwise. -/
structure ReadsExactly (raw : String) (p : IntReading raw) : Prop where
  some_iff : ∀ v : Int64, intPrefix? raw = some v ↔ p.digits ≠ [] ∧ v.toInt = p.value
  none_iff : intPrefix? raw = none ↔ p.digits = [] ∨ ¬ Word.Signed p.value

/-- Of the values that are signed words, the least one alone does not have its digits among them. -/
theorem IntReading.magnitude_lt_iff {raw : String} {p : IntReading raw}
    (h : p.value ≠ -(Word.signedBound : Int)) :
    p.magnitude < Word.signedBound ↔ Word.Signed p.value := by
  have hvalue := p.value_cases
  unfold Word.Signed
  omega

theorem readsExactly_iff {raw : String} (p : IntReading raw) :
    ReadsExactly raw p ↔ p.value ≠ -(Word.signedBound : Int) := by
  constructor
  · intro h hleast
    have hvalue := p.value_cases
    have hbound : Word.signedBound = 9223372036854775808 := rfl
    have hdigits : p.digits ≠ [] := by
      intro hnil
      have hzero := IntReading.magnitude_of_digits_eq_nil hnil
      omega
    have hnone : intPrefix? raw = none := p.intPrefix?_eq_none_iff.2 (.inr (by omega))
    -- the least word is a signed word, yet nothing is read
    obtain hnil | hnot := h.none_iff.1 hnone
    · exact hdigits hnil
    · rw [hleast] at hnot
      exact hnot (by decide)
  · intro hne
    have hlt := IntReading.magnitude_lt_iff hne
    constructor
    · intro v
      rw [p.intPrefix?_eq_some_iff, hlt]
      constructor
      · rintro ⟨hdigits, -, hv⟩
        exact ⟨hdigits, hv⟩
      · rintro ⟨hdigits, hv⟩
        have hlow := v.le_toInt
        have hhigh := v.toInt_lt
        rw [hv] at hlow hhigh
        exact ⟨hdigits, ⟨hlow, hhigh⟩, hv⟩
    · rw [p.intPrefix?_eq_none_iff, ← hlt, Nat.not_lt]

/-- **An integer is read exactly unless it is the least word.** A text falls into its parts in one
way. What is read is the value of the digits with the sign, if there are digits and the value is a
signed word, except that the least word is not read. So neither the digits nor their negative leave
the range of the words where a word is given, and the text is cut between characters only. -/
theorem intPrefix?_exact_but_for_least (raw : String) :
    ∃ p : IntReading raw, (∀ q : IntReading raw, q = p) ∧
      (ReadsExactly raw p ↔ p.value ≠ -(Word.signedBound : Int)) ∧
      (∀ v : Int64, intPrefix? raw = some v ↔
        p.digits ≠ [] ∧ p.magnitude < Word.signedBound ∧ v.toInt = p.value) ∧
      p.CutsBetweenCharacters := by
  obtain ⟨p⟩ := IntReading.nonempty raw
  exact ⟨p, fun q => q.unique p, readsExactly_iff p, p.intPrefix?_eq_some_iff,
    p.cutsBetweenCharacters⟩

/-- The parts of `-9223372036854775808`. -/
def leastReading : IntReading "-9223372036854775808" where
  blanks := []
  sign := ['-']
  digits := "9223372036854775808".toList
  rest := []
  split := by decide
  isBlank_of_mem := List.forall_mem_nil _
  isBlank_head := by
    intro c hc
    obtain rfl : '-' = c := Option.some.inj hc
    decide
  sign_eq := .inr (.inl rfl)
  unsigned_head := fun hsign => absurd hsign (by decide)
  isDigit_of_mem := List.all_eq_true.1 (by decide)
  isDigit_head := by
    intro c hc
    cases hc

/-- The least word is not read, although it is a word. -/
theorem intPrefix?_misses_least :
    ¬ ∀ (raw : String) (p : IntReading raw), ReadsExactly raw p := by
  intro h
  have hnone : intPrefix? "-9223372036854775808" = none := by decide
  obtain hnil | hnot := (h _ leastReading).none_iff.1 hnone
  · exact absurd hnil (by decide)
  · exact hnot (by decide)

end DeclCatalog.Text
