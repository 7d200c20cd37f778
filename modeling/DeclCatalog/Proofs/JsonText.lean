import DeclCatalog.Json.Parser
import DeclCatalog.Json.Printer

/-!
# Written text is read back

The indented text of a JSON value denotes that value. Both sides put what follows a value behind
it, so the central statement speaks of a text that goes on: reading `writePretty level v rest` gives
`v` and leaves `rest`.

- `Json.isExact`: the values that the statement holds for: every number in them is an integer of the
  64-bit ranges, and nothing in them is unreadable.
- `Json.Ends`: a text that cannot lengthen a number that stands before it.
- `Json.ReadsBack`, `Json.readsBack`: **a written value is read back**, when the bound of the reader
  is at least the length of the text.
- `Json.parse?_pretty`: a whole text.
-/

namespace DeclCatalog.Json

mutual

/-- Whether every number in a value is an integer of the 64-bit ranges, and nothing is unreadable.
-/
def isExact : Json → Bool
  | .null => true
  | .bool _ => true
  | .int n => -(Word.signedBound : Int) ≤ n && n < (Word.unsignedBound : Int)
  | .decimal _ => false
  | .str _ => true
  | .arr items => isExactItems items
  | .obj fields => isExactFields fields
  | .unreadable => false

/-- Whether every item is exact. -/
def isExactItems : List Json → Bool
  | [] => true
  | item :: rest => item.isExact && isExactItems rest

/-- Whether every field's value is exact. -/
def isExactFields : List (String × Json) → Bool
  | [] => true
  | (_, value) :: rest => value.isExact && isExactFields rest

end

/-! ## White space -/

theorem skipSpace_cons_of_not_isSpace {c : Char} (h : isSpace c = false) (cs : List Char) :
    skipSpace (c :: cs) = c :: cs := by
  simp [skipSpace, h]

theorem skipSpace_cons_of_isSpace {c : Char} (h : isSpace c = true) (cs : List Char) :
    skipSpace (c :: cs) = skipSpace cs := by
  simp [skipSpace, h]

/-- A new line is white space all through. -/
@[simp] theorem skipSpace_newLine (level : Nat) (cs : List Char) :
    skipSpace (newLine level cs) = skipSpace cs := by
  have hblank : ∀ c ∈ List.replicate (2 * level) ' ', isSpace c = true := by
    intro c hc
    rw [List.eq_of_mem_replicate hc]
    decide
  show skipSpace ('\n' :: (List.replicate (2 * level) ' ' ++ cs)) = skipSpace cs
  rw [skipSpace_cons_of_isSpace (by decide)]
  exact List.dropWhile_append_of_pos hblank

theorem length_newLine (level : Nat) (cs : List Char) :
    (newLine level cs).length = 2 * level + cs.length + 1 := by
  simp [newLine]

@[simp] theorem skipSpace_skipSpace (cs : List Char) : skipSpace (skipSpace cs) = skipSpace cs := by
  induction cs with
  | nil => rfl
  | cons c cs ih =>
    cases h : isSpace c with
    | true => rw [skipSpace_cons_of_isSpace h, ih]
    | false => rw [skipSpace_cons_of_not_isSpace h, skipSpace_cons_of_not_isSpace h]

/-- A value may stand behind white space. -/
theorem value?_skipSpace (bound : Nat) (cs : List Char) :
    value? bound (skipSpace cs) = value? bound cs := by
  cases bound with
  | zero => rfl
  | succ bound => rw [value?, value?, skipSpace_skipSpace]

theorem value?_newLine (bound level : Nat) (cs : List Char) :
    value? bound (newLine level cs) = value? bound cs := by
  rw [← value?_skipSpace, skipSpace_newLine, value?_skipSpace]

/-! ## Strings -/

/-- Both hexadecimal digits of a control character are read back. -/
theorem hexValue?_hexDigit : ∀ n, n < 16 → Text.hexValue? (hexDigit n) = some n := by
  decide

/-- A character that is neither a quote nor a backslash nor a control stands for itself. -/
theorem stringChars?_cons_plain {c : Char} (hquote : c ≠ '\x22') (hslash : c ≠ '\\')
    (hcontrol : ¬ c.toNat < 0x20) (bound : Nat) (cs : List Char) :
    stringChars? (bound + 1) (c :: cs) =
      (stringChars? bound cs).map fun (body, rest) => (some c :: body, rest) := by
  rw [stringChars?]
  · rw [if_neg hcontrol]
    cases stringChars? bound cs <;> rfl
  · exact hquote
  · exact hslash

/-- An escape stands for the character that it denotes. -/
theorem stringChars?_cons_escape {c : Char} {cs rest : List Char}
    (h : escape? cs = some (some c, rest)) (bound : Nat) :
    stringChars? (bound + 1) ('\\' :: cs) =
      (stringChars? bound rest).map fun (body, rest) => (some c :: body, rest) := by
  simp only [stringChars?, h, Option.bind_eq_bind, Option.bind_some]
  cases stringChars? bound rest <;> rfl

/-- The escape of a control character denotes it. -/
theorem escape?_control {c : Char} (h : c.toNat < 0x20) (cs : List Char) :
    escape? ('u' :: '0' :: '0' :: hexDigit (c.toNat / 16) :: hexDigit (c.toNat % 16) :: cs) =
      some (some c, cs) := by
  have hzero : Text.hexValue? '0' = some 0 := by decide
  have hhigh := hexValue?_hexDigit (c.toNat / 16) (by omega)
  have hlow := hexValue?_hexDigit (c.toNat % 16) (by omega)
  have hvalue : ((0 * 16 + 0) * 16 + c.toNat / 16) * 16 + c.toNat % 16 = c.toNat := by omega
  have hex : hex4? ('0' :: '0' :: hexDigit (c.toNat / 16) :: hexDigit (c.toNat % 16) :: cs) =
      some (c.toNat, cs) := by
    simp only [hex4?, hzero, hhigh, hlow, Option.bind_eq_bind, Option.bind_some, hvalue]
    rfl
  have hpair : ¬ (0xD800 ≤ c.toNat ∧ c.toNat < 0xDC00) := by omega
  have hhalf : ¬ (0xDC00 ≤ c.toNat ∧ c.toNat < 0xE000) := by omega
  simp only [escape?, codePoint?, hex, Option.bind_eq_bind, Option.bind_some, if_neg hpair,
    if_neg hhalf, Char.ofNat_toNat]
  rfl

/-- Every character of a string is read back from how it is written. -/
theorem stringChars?_escapeChar (c : Char) (bound : Nat) (cs : List Char) :
    stringChars? (bound + 1) (escapeChar c ++ cs) =
      (stringChars? bound cs).map fun (body, rest) => (some c :: body, rest) := by
  by_cases hquote : c = '\x22'
  · subst hquote
    exact stringChars?_cons_escape rfl bound
  by_cases hslash : c = '\\'
  · subst hslash
    exact stringChars?_cons_escape rfl bound
  by_cases hback : c = '\x08'
  · subst hback
    exact stringChars?_cons_escape rfl bound
  by_cases hfeed : c = '\x0c'
  · subst hfeed
    exact stringChars?_cons_escape rfl bound
  by_cases hline : c = '\n'
  · subst hline
    exact stringChars?_cons_escape rfl bound
  by_cases hreturn : c = '\r'
  · subst hreturn
    exact stringChars?_cons_escape rfl bound
  by_cases htab : c = '\t'
  · subst htab
    exact stringChars?_cons_escape rfl bound
  simp only [escapeChar, beq_iff_eq, hquote, hslash, hback, hfeed, hline, hreturn, htab, if_false]
  by_cases hcontrol : c.toNat < 0x20
  · rw [if_pos hcontrol]
    exact stringChars?_cons_escape (escape?_control hcontrol cs) bound
  · rw [if_neg hcontrol]
    exact stringChars?_cons_plain hquote hslash hcontrol bound cs

/-- The characters of a string up to its closing quote are read back. -/
theorem stringChars?_writeChars {cs : List Char} {bound : Nat} (h : cs.length < bound)
    (rest : List Char) :
    stringChars? bound (writeChars cs rest) = some (cs.map some, rest) := by
  induction cs generalizing bound with
  | nil =>
    obtain ⟨bound, rfl⟩ := Nat.exists_eq_succ_of_ne_zero (Nat.pos_iff_ne_zero.1 h)
    rfl
  | cons c cs ih =>
    obtain ⟨bound, rfl⟩ := Nat.exists_eq_succ_of_ne_zero (Nat.ne_of_gt (Nat.zero_lt_of_lt h))
    rw [writeChars, stringChars?_escapeChar, ih (Nat.lt_of_succ_lt_succ h)]
    rfl

theorem textOf?_map_some (cs : List Char) : textOf? (cs.map some) = some (String.ofList cs) := by
  have hall : (cs.map some).mapM id = some cs := by
    induction cs with
    | nil => rfl
    | cons c cs ih => simp [ih]
  rw [textOf?, hall]
  rfl

/-- A string is read back. -/
theorem string?_writeChars {s : String} {bound : Nat} (h : s.toList.length < bound)
    (rest : List Char) : string? bound (writeChars s.toList rest) = some (some s, rest) := by
  rw [string?, stringChars?_writeChars h]
  show some (textOf? (s.toList.map some), rest) = some (some s, rest)
  rw [textOf?_map_some, String.ofList_toList]

/-! ## Numbers -/

/-- A text that cannot lengthen a number that stands before it. -/
def Ends (rest : List Char) : Prop :=
  ∀ c ∈ rest.head?, c.isDigit = false ∧ c ≠ '.' ∧ c ≠ 'e' ∧ c ≠ 'E'

theorem ends_nil : Ends [] := by
  intro c hc
  cases hc

theorem ends_cons {c : Char} (h : c.isDigit = false ∧ c ≠ '.' ∧ c ≠ 'e' ∧ c ≠ 'E')
    (cs : List Char) : Ends (c :: cs) := by
  intro d hd
  obtain rfl : c = d := by simpa using hd
  exact h

theorem ends_newLine (level : Nat) (cs : List Char) : Ends (newLine level cs) :=
  ends_cons (by decide) _

/-- A number is written with at least one digit. -/
theorem toDigits_eq_cons (n : Nat) : ∃ c cs, Nat.toDigits 10 n = c :: cs ∧ c.isDigit = true := by
  cases hdigits : Nat.toDigits 10 n with
  | nil => exact absurd hdigits Nat.toDigits_ne_nil
  | cons c cs =>
    refine ⟨c, cs, rfl, ?_⟩
    exact Nat.isDigit_of_mem_toDigits (by decide) (by decide) (hdigits ▸ List.mem_cons_self)

/-- The digits of a number, and nothing of what follows, are taken for its digits. -/
theorem digits?_toDigits (n : Nat) {rest : List Char} (hrest : Ends rest) :
    digits? (Nat.toDigits 10 n ++ rest) = some (Nat.toDigits 10 n, rest) := by
  have hdigit : ∀ c ∈ Nat.toDigits 10 n, c.isDigit = true := fun c hc =>
    Nat.isDigit_of_mem_toDigits (by decide) (by decide) hc
  have htake : rest.takeWhile Char.isDigit = [] := by
    cases rest with
    | nil => rfl
    | cons c rest => simp [(hrest c rfl).1]
  have hdrop : rest.dropWhile Char.isDigit = rest := by
    cases rest with
    | nil => rfl
    | cons c rest => simp [(hrest c rfl).1]
  rw [digits?, List.takeWhile_append_of_pos hdigit, List.dropWhile_append_of_pos hdigit, htake,
    hdrop, List.append_nil]
  cases hdigits : Nat.toDigits 10 n with
  | nil => exact absurd hdigits Nat.toDigits_ne_nil
  | cons c cs => rfl

/-- A number above zero is not written with a zero in front. -/
theorem head?_toDigits_ne_zero {n : Nat} (h : 0 < n) : (Nat.toDigits 10 n).head? ≠ some '0' := by
  induction n using Nat.strongRecOn with
  | ind n ih =>
    by_cases hlt : n < 10
    · have hdigit : ∀ d, d < 10 → 0 < d → d.digitChar ≠ '0' := by decide
      rw [Nat.toDigits_of_lt_base hlt]
      exact fun h => hdigit n hlt ‹0 < n› (Option.some.inj h)
    · have hge : 10 ≤ n := Nat.le_of_not_lt hlt
      have hhead := ih (n / 10) (by omega) (by omega)
      rw [Nat.toDigits_of_base_le (by decide) hge, List.head?_append]
      obtain ⟨c, cs, hdigits, -⟩ := toDigits_eq_cons (n / 10)
      rw [hdigits] at hhead ⊢
      exact hhead

/-- The digits of a number are its integer part. -/
theorem whole?_toDigits (n : Nat) {rest : List Char} (hrest : Ends rest) :
    whole? (Nat.toDigits 10 n ++ rest) = some (Nat.toDigits 10 n, rest) := by
  rcases Nat.eq_zero_or_pos n with rfl | hpos
  · rfl
  · have hhead := head?_toDigits_ne_zero hpos
    rw [← digits?_toDigits n hrest]
    obtain ⟨c, cs, hdigits, -⟩ := toDigits_eq_cons n
    rw [hdigits] at hhead ⊢
    rw [List.cons_append, whole?]
    intro rest' h
    exact hhead (congrArg some (List.cons.inj h).1)

theorem decimalValue_toDigits (n : Nat) : Text.decimalValue (Nat.toDigits 10 n) = n :=
  Nat.ofDigitChars_ten_toDigits

/-- After the digits of a number there is neither a fraction nor an exponent. -/
theorem unsigned?_toDigits (negative : Bool) (n : Nat) {rest : List Char} (hrest : Ends rest) :
    unsigned? negative (Nat.toDigits 10 n ++ rest) =
      some (ofNumber negative (Nat.toDigits 10 n) [] [], rest) := by
  have hfraction : fraction? rest = some ([], rest) := by
    cases rest with
    | nil => rfl
    | cons c rest =>
      rw [fraction?]
      intro rest' h
      exact (hrest c rfl).2.1 (List.cons.inj h).1
  have hexponent : exponent? rest = some ([], rest) := by
    cases rest with
    | nil => rfl
    | cons c rest =>
      obtain ⟨-, -, hlower, hupper⟩ := hrest c rfl
      simp [exponent?, hlower, hupper]
  simp only [unsigned?, whole?_toDigits n hrest, hfraction, hexponent, Option.bind_eq_bind,
    Option.bind_some]
  rfl

/-- An integer of the 64-bit ranges is read back. -/
theorem number?_writeInt {n : Int} (hlow : -(Word.signedBound : Int) ≤ n)
    (hhigh : n < (Word.unsignedBound : Int)) {rest : List Char} (hrest : Ends rest) :
    number? (writeInt n rest) = some (.int n, rest) := by
  cases n with
  | ofNat n =>
    have hvalue : ofNumber false (Nat.toDigits 10 n) [] [] = .int n := by
      have hlt : n < Word.unsignedBound := Int.ofNat_lt.1 hhigh
      simp [ofNumber, decimalValue_toDigits, hlt]
    rw [writeInt, number?]
    · rw [unsigned?_toDigits false n hrest, hvalue]
      rfl
    · -- a digit is no sign
      intro cs h
      obtain ⟨c, ds, hdigits, hdigit⟩ := toDigits_eq_cons n
      rw [hdigits] at h
      obtain rfl : c = '-' := (List.cons.inj h).1
      exact absurd hdigit (by decide)
  | negSucc n =>
    have hvalue : ofNumber true (Nat.toDigits 10 (n + 1)) [] [] = .int (Int.negSucc n) := by
      have hle : n + 1 ≤ Word.signedBound := by omega
      simp [ofNumber, decimalValue_toDigits, hle, Int.negSucc_eq]
    rw [writeInt, List.cons_append, number?, unsigned?_toDigits true (n + 1) hrest, hvalue]

/-- An integer begins with a sign or a digit. -/
theorem writeInt_eq_cons (n : Int) (rest : List Char) :
    ∃ c cs, writeInt n rest = c :: cs ∧ (c = '-' ∨ c.isDigit = true) := by
  cases n with
  | negSucc n => exact ⟨'-', Nat.toDigits 10 (n + 1) ++ rest, rfl, .inl rfl⟩
  | ofNat n =>
    obtain ⟨c, ds, hdigits, hdigit⟩ := toDigits_eq_cons n
    exact ⟨c, ds ++ rest, by rw [writeInt, hdigits]; rfl, .inr hdigit⟩

/-- Neither a sign nor a digit is any other character. -/
theorem ne_of_sign_or_digit {c d : Char} (hc : c = '-' ∨ c.isDigit = true) (hsign : d ≠ '-')
    (hdigit : d.isDigit = false) : c ≠ d := by
  rintro rfl
  rcases hc with rfl | hc
  · exact hsign rfl
  · rw [hdigit] at hc
    cases hc

theorem isSpace_of_sign_or_digit {c : Char} (hc : c = '-' ∨ c.isDigit = true) :
    isSpace c = false := by
  have hother : ∀ d, d ≠ '-' → d.isDigit = false → c ≠ d := fun _ => ne_of_sign_or_digit hc
  simp [isSpace, hother ' ' (by decide) (by decide), hother '\n' (by decide) (by decide),
    hother '\t' (by decide) (by decide), hother '\r' (by decide) (by decide)]

/-- What begins with a sign or a digit is read as a number. -/
theorem value?_writeInt {n : Int} (hlow : -(Word.signedBound : Int) ≤ n)
    (hhigh : n < (Word.unsignedBound : Int)) {rest : List Char} (hrest : Ends rest) (bound : Nat) :
    value? (bound + 1) (writeInt n rest) = some (.int n, rest) := by
  have hnumber := number?_writeInt hlow hhigh hrest
  obtain ⟨c, cs, hcs, hc⟩ := writeInt_eq_cons n rest
  rw [hcs] at hnumber ⊢
  rw [value?, skipSpace_cons_of_not_isSpace (isSpace_of_sign_or_digit hc)]
  split
  case h_1 h => cases h
  case h_8 => exact hnumber
  case h_2 h | h_3 h | h_4 h | h_5 h | h_6 h | h_7 h =>
    exact absurd (List.cons.inj h).1 (ne_of_sign_or_digit hc (by decide) (by decide))

/-! ## Lengths -/

theorem length_le_writeWord (word : String) (rest : List Char) :
    rest.length ≤ (writeWord word rest).length := by
  simp [writeWord]

theorem length_le_writeString (s : String) (rest : List Char) :
    s.toList.length + rest.length + 2 ≤ (writeString s rest).length := by
  have hchars : ∀ cs : List Char, cs.length + rest.length + 1 ≤ (writeChars cs rest).length := by
    intro cs
    induction cs with
    | nil => simp [writeChars]
    | cons c cs ih =>
      have hescape : 0 < (escapeChar c).length := by
        unfold escapeChar
        repeat' split
        all_goals exact Nat.succ_pos _
      simp only [writeChars, List.length_append, List.length_cons]
      omega
  have h := hchars s.toList
  simp only [writeString, List.length_cons]
  omega

mutual

/-- What follows a value is no longer than the text that begins with the value. -/
theorem length_le_writePretty :
    ∀ (level : Nat) (v : Json) (rest : List Char),
      rest.length ≤ (writePretty level v rest).length
  | _, .null, rest => length_le_writeWord _ rest
  | _, .bool true, rest => length_le_writeWord _ rest
  | _, .bool false, rest => length_le_writeWord _ rest
  | _, .int (.ofNat n), rest => by simp [writePretty, writeInt]
  | _, .int (.negSucc n), rest => by
    simp only [writePretty, writeInt, List.length_append, List.length_cons]
    omega
  | _, .decimal _, rest => length_le_writeWord _ rest
  | _, .str s, rest => by
    have h := length_le_writeString s rest
    simp only [writePretty]
    omega
  | _, .unreadable, rest => length_le_writeWord _ rest
  | _, .arr [], rest => Nat.le_add_right rest.length 2
  | level, .arr (item :: items), rest => by
    have hitem := length_le_writePretty (level + 1) item
      (writePrettyItems (level + 1) items (newLine level (']' :: rest)))
    have hitems := length_le_writePrettyItems (level + 1) items (newLine level (']' :: rest))
    simp only [writePretty, List.length_cons, length_newLine] at hitem hitems ⊢
    omega
  | _, .obj [], rest => Nat.le_add_right rest.length 2
  | level, .obj ((key, value) :: fields), rest => by
    have hvalue := length_le_writePretty (level + 1) value
      (writePrettyFields (level + 1) fields (newLine level ('\x7d' :: rest)))
    have hfields := length_le_writePrettyFields (level + 1) fields
      (newLine level ('\x7d' :: rest))
    have hkey := length_le_writeString key (':' :: ' ' :: writePretty (level + 1) value
      (writePrettyFields (level + 1) fields (newLine level ('\x7d' :: rest))))
    simp only [writePretty, List.length_cons, length_newLine] at hvalue hfields hkey ⊢
    omega

theorem length_le_writePrettyItems :
    ∀ (level : Nat) (items : List Json) (rest : List Char),
      rest.length ≤ (writePrettyItems level items rest).length
  | _, [], rest => Nat.le_refl _
  | level, item :: items, rest => by
    have hitem := length_le_writePretty level item (writePrettyItems level items rest)
    have hitems := length_le_writePrettyItems level items rest
    simp only [writePrettyItems, List.length_cons, length_newLine]
    omega

theorem length_le_writePrettyFields :
    ∀ (level : Nat) (fields : List (String × Json)) (rest : List Char),
      rest.length ≤ (writePrettyFields level fields rest).length
  | _, [], rest => Nat.le_refl _
  | level, (key, value) :: fields, rest => by
    have hvalue := length_le_writePretty level value (writePrettyFields level fields rest)
    have hfields := length_le_writePrettyFields level fields rest
    have hkey := length_le_writeString key
      (':' :: ' ' :: writePretty level value (writePrettyFields level fields rest))
    simp only [writePrettyFields, List.length_cons, length_newLine] at hkey ⊢
    omega

end

/-! ## Values -/

/-- The text after an item either closes the array or goes on with a comma. -/
theorem ends_writePrettyItems (level : Nat) (items : List Json) {rest : List Char}
    (hrest : Ends rest) : Ends (writePrettyItems level items rest) := by
  cases items with
  | nil => exact hrest
  | cons item items => exact ends_cons (by decide) _

theorem ends_writePrettyFields (level : Nat) (fields : List (String × Json)) {rest : List Char}
    (hrest : Ends rest) : Ends (writePrettyFields level fields rest) := by
  cases fields with
  | nil => exact hrest
  | cons field fields => exact ends_cons (by decide) _

/-- No value begins with white space or with a closing bracket. -/
theorem writePretty_eq_cons (level : Nat) {v : Json} (hv : v.isExact = true) (rest : List Char) :
    ∃ c cs, writePretty level v rest = c :: cs ∧ isSpace c = false ∧ c ≠ ']' := by
  match v, hv with
  | .null, _ => exact ⟨_, _, rfl, by decide, by decide⟩
  | .bool true, _ => exact ⟨_, _, rfl, by decide, by decide⟩
  | .bool false, _ => exact ⟨_, _, rfl, by decide, by decide⟩
  | .str s, _ => exact ⟨_, _, rfl, by decide, by decide⟩
  | .arr [], _ => exact ⟨_, _, rfl, by decide, by decide⟩
  | .arr (_ :: _), _ => exact ⟨_, _, rfl, by decide, by decide⟩
  | .obj [], _ => exact ⟨_, _, rfl, by decide, by decide⟩
  | .obj ((_, _) :: _), _ => exact ⟨_, _, rfl, by decide, by decide⟩
  | .int n, _ =>
    obtain ⟨c, cs, hcs, hc⟩ := writeInt_eq_cons n rest
    exact ⟨c, cs, hcs, isSpace_of_sign_or_digit hc,
      ne_of_sign_or_digit hc (by decide) (by decide)⟩

theorem items?_newLine (bound level : Nat) (cs : List Char) :
    items? bound (newLine level cs) = items? bound cs := by
  cases bound with
  | zero => rfl
  | succ bound => rw [items?, items?, value?_newLine]

theorem fields?_newLine (bound level : Nat) (cs : List Char) :
    fields? bound (newLine level cs) = fields? bound cs := by
  cases bound with
  | zero => rfl
  | succ bound => rw [fields?, fields?, skipSpace_newLine]

/-- The fields of an object whose keys are all texts. -/
theorem ofFields_map_some (fields : List (String × Json)) :
    ofFields (fields.map fun (key, value) => (some key, value)) = .obj fields := by
  have hall : (fields.map fun (key, value) => (some key, value)).mapM fieldOfKey? =
      some fields := by
    induction fields with
    | nil => rfl
    | cons field fields ih =>
      rw [List.map_cons, List.mapM_cons, ih]
      rfl
  rw [ofFields, hall]

/-- A value is read back wherever its text stands, and what follows it is left. -/
def ReadsBack (v : Json) : Prop :=
  ∀ (level bound : Nat) (rest : List Char), (writePretty level v rest).length ≤ bound →
    Ends rest → value? bound (writePretty level v rest) = some (v, rest)

/-- No bound of zero is enough for a value that is written with some text. -/
theorem readsBack_of_succ {v : Json} (hv : v.isExact = true)
    (h : ∀ (level bound : Nat) (rest : List Char), (writePretty level v rest).length ≤ bound + 1 →
      Ends rest → value? (bound + 1) (writePretty level v rest) = some (v, rest)) :
    ReadsBack v := by
  intro level bound rest hbound hrest
  cases bound with
  | succ bound => exact h level bound rest hbound hrest
  | zero =>
    obtain ⟨c, cs, hcs, -, -⟩ := writePretty_eq_cons level hv rest
    rw [hcs] at hbound
    cases hbound

theorem readsBack_str (s : String) : ReadsBack (.str s) := by
  refine readsBack_of_succ rfl fun level bound rest hbound _ => ?_
  have hlength := length_le_writeString s rest
  rw [writePretty] at hbound ⊢
  have hchars := string?_writeChars (s := s) (show s.toList.length < bound by omega) rest
  rw [writeString, value?, skipSpace_cons_of_not_isSpace (by decide)]
  simp only [hchars]
  rfl

/-- The items of an array are read back up to its closing bracket. -/
theorem items?_writePretty (level outer : Nat) (rest : List Char) :
    ∀ (item : Json) (items : List Json) (bound : Nat), (∀ v ∈ item :: items, ReadsBack v) →
      (writePretty level item
        (writePrettyItems level items (newLine outer (']' :: rest)))).length < bound →
      items? bound (writePretty level item
        (writePrettyItems level items (newLine outer (']' :: rest)))) = some (item :: items, rest)
  | item, items, bound + 1, hread, hbound => by
    have hitem := hread item List.mem_cons_self level bound
      (writePrettyItems level items (newLine outer (']' :: rest))) (Nat.le_of_lt_succ hbound)
      (ends_writePrettyItems level items (ends_newLine outer _))
    rw [items?, hitem, Option.bind_eq_bind, Option.bind_some]
    cases items with
    | nil =>
      simp only [writePrettyItems, skipSpace_newLine,
        skipSpace_cons_of_not_isSpace (show isSpace ']' = false by decide)]
      rfl
    | cons next items =>
      have hlength := length_le_writePretty level item
        (writePrettyItems level (next :: items) (newLine outer (']' :: rest)))
      rw [writePrettyItems, List.length_cons, length_newLine] at hlength
      rw [writePrettyItems] at hbound
      have hnext := items?_writePretty level outer rest next items bound
        (fun v hv => hread v (List.mem_cons_of_mem item hv)) (by omega)
      simp only [writePrettyItems, items?_newLine, hnext,
        skipSpace_cons_of_not_isSpace (show isSpace ',' = false by decide)]
      rfl
termination_by _ items => items.length

theorem readsBack_arr {items : List Json} (hexact : isExactItems items = true)
    (hread : ∀ v ∈ items, ReadsBack v) : ReadsBack (.arr items) := by
  refine readsBack_of_succ hexact fun level bound rest hbound _ => ?_
  cases items with
  | nil => rfl
  | cons item items =>
    rw [isExactItems, Bool.and_eq_true] at hexact
    rw [writePretty, List.length_cons, length_newLine] at hbound
    have hitems := items?_writePretty (level + 1) level rest item items bound hread (by omega)
    obtain ⟨c, cs, hcs, hspace, hclose⟩ := writePretty_eq_cons (level + 1) hexact.1
      (writePrettyItems (level + 1) items (newLine level (']' :: rest)))
    rw [hcs] at hitems
    rw [writePretty, value?, skipSpace_cons_of_not_isSpace (by decide)]
    simp only [skipSpace_newLine, hcs, skipSpace_cons_of_not_isSpace hspace]
    -- the first item does not close the array
    split
    case h_1 h => exact absurd (List.cons.inj h).1 hclose
    case h_2 =>
      rw [hitems]
      rfl

/-- The fields of an object are read back up to its closing brace. -/
theorem fields?_writePretty (level outer : Nat) (rest : List Char) :
    ∀ (key : String) (value : Json) (fields : List (String × Json)) (bound : Nat),
      (∀ field ∈ (key, value) :: fields, ReadsBack field.2) →
      (writeString key (':' :: ' ' :: writePretty level value
        (writePrettyFields level fields (newLine outer ('\x7d' :: rest))))).length < bound →
      fields? bound (writeString key (':' :: ' ' :: writePretty level value
        (writePrettyFields level fields (newLine outer ('\x7d' :: rest))))) =
        some (((key, value) :: fields).map fun (key, value) => (some key, value), rest)
  | key, value, fields, bound + 1, hread, hbound => by
    have hlength := length_le_writeString key (':' :: ' ' :: writePretty level value
      (writePrettyFields level fields (newLine outer ('\x7d' :: rest))))
    rw [List.length_cons, List.length_cons] at hlength
    have hkey := string?_writeChars (s := key) (show key.toList.length < bound by omega)
      (':' :: ' ' :: writePretty level value
        (writePrettyFields level fields (newLine outer ('\x7d' :: rest))))
    have hfirst : ReadsBack value := hread (key, value) List.mem_cons_self
    have hvalue := hfirst level bound
      (writePrettyFields level fields (newLine outer ('\x7d' :: rest))) (by omega)
      (ends_writePrettyFields level fields (ends_newLine outer _))
    -- a blank stands between the colon and the value
    rw [← value?_skipSpace, ← skipSpace_cons_of_isSpace (show isSpace ' ' = true by decide),
      value?_skipSpace] at hvalue
    rw [writeString, fields?, skipSpace_cons_of_not_isSpace (by decide)]
    simp only [hkey, hvalue, Option.bind_eq_bind, Option.bind_some,
      skipSpace_cons_of_not_isSpace (show isSpace ':' = false by decide)]
    cases fields with
    | nil =>
      simp only [writePrettyFields, skipSpace_newLine,
        skipSpace_cons_of_not_isSpace (show isSpace '\x7d' = false by decide)]
      rfl
    | cons next fields =>
      have hrest := length_le_writePretty level value
        (writePrettyFields level (next :: fields) (newLine outer ('\x7d' :: rest)))
      rw [writePrettyFields, List.length_cons, length_newLine] at hrest
      rw [writePrettyFields] at hlength hbound
      have hnext := fields?_writePretty level outer rest next.1 next.2 fields bound
        (fun field hfield => hread field (List.mem_cons_of_mem _ hfield)) (by omega)
      simp only [writePrettyFields, fields?_newLine, hnext,
        skipSpace_cons_of_not_isSpace (show isSpace ',' = false by decide)]
      rfl
termination_by _ _ fields => fields.length

theorem readsBack_obj {fields : List (String × Json)} (hexact : isExactFields fields = true)
    (hread : ∀ field ∈ fields, ReadsBack field.2) : ReadsBack (.obj fields) := by
  refine readsBack_of_succ hexact fun level bound rest hbound _ => ?_
  cases fields with
  | nil => rfl
  | cons field fields =>
    obtain ⟨key, value⟩ := field
    rw [writePretty, List.length_cons, length_newLine] at hbound
    have hfields := fields?_writePretty (level + 1) level rest key value fields bound hread
      (by omega)
    rw [writeString] at hfields
    rw [writePretty, writeString, value?, skipSpace_cons_of_not_isSpace (by decide)]
    simp only [skipSpace_newLine,
      skipSpace_cons_of_not_isSpace (show isSpace '\x22' = false by decide)]
    -- the first key does not close the object
    split
    case h_1 h => exact absurd (List.cons.inj h).1 (by decide)
    case h_2 => rw [hfields, Option.map_some, ofFields_map_some]

mutual

/-- Every exact value is read back. -/
theorem readsBack : ∀ v : Json, v.isExact = true → ReadsBack v
  | .null, h => readsBack_of_succ h fun _ _ _ _ _ => rfl
  | .bool true, h => readsBack_of_succ h fun _ _ _ _ _ => rfl
  | .bool false, h => readsBack_of_succ h fun _ _ _ _ _ => rfl
  | .int n, h => readsBack_of_succ h fun _ bound _ _ hrest => by
    rw [isExact, Bool.and_eq_true, decide_eq_true_iff, decide_eq_true_iff] at h
    exact value?_writeInt h.1 h.2 hrest bound
  | .str s, _ => readsBack_str s
  | .arr items, h => readsBack_arr h (readsBack_of_mem items h)
  | .obj fields, h => readsBack_obj h (readsBack_of_mem_fields fields h)

theorem readsBack_of_mem :
    ∀ items : List Json, isExactItems items = true → ∀ v ∈ items, ReadsBack v
  | [], _ => List.forall_mem_nil _
  | item :: items, h => by
    rw [isExactItems, Bool.and_eq_true] at h
    exact List.forall_mem_cons.2 ⟨readsBack item h.1, readsBack_of_mem items h.2⟩

theorem readsBack_of_mem_fields :
    ∀ fields : List (String × Json), isExactFields fields = true →
      ∀ field ∈ fields, ReadsBack field.2
  | [], _ => List.forall_mem_nil _
  | (key, value) :: fields, h => by
    rw [isExactFields, Bool.and_eq_true] at h
    exact List.forall_mem_cons.2 ⟨readsBack value h.1, readsBack_of_mem_fields fields h.2⟩

end

/-- The indented text of a value denotes the value. -/
theorem parse?_pretty {v : Json} (hv : v.isExact = true) : parse? v.pretty = some v := by
  have hvalue := readsBack v hv 0 (2 * (writePretty 0 v []).length + 2) [] (by omega) ends_nil
  simp only [parse?, pretty, String.toList_ofList, hvalue, Option.bind_eq_bind, Option.bind_some]
  rfl

/-- The text of a value is read down to the limit. -/
theorem read?_pretty {v : Json} (hv : v.isExact = true) :
    read? v.pretty = some (v.cut nestingLimit) := by
  rw [read?, parse?_pretty hv, Option.map_some]

end DeclCatalog.Json
