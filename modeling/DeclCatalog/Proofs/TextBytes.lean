import Mathlib.Tactic.SplitIfs

/-!
# The bytes of a text

A character below 128 is one byte, and any other character is several bytes from 128 on. So a text
can be looked through byte by byte for such characters, and what is found ends between two
characters.

- `Text.bytes`, `Text.bytes_eq_flatMap`: the bytes of a text are those of its characters.
- `Text.utf8EncodeChar_of_lt`, `Text.exists_utf8EncodeChar_of_le`: the first byte of a character.
- `Text.head?_bytes_ofList_eq_some_iff`, `Text.length_takeWhile_bytes_ofList`: what bytes say of the
  first character, and of the longest run of characters of a class.
- `Text.isValid_of_ascii`: **a run of characters below 128 ends between two characters**.
-/

namespace DeclCatalog.Text

/-- The bytes of a text. -/
def bytes (s : String) : List UInt8 :=
  s.toUTF8.data.toList

theorem bytes_eq_flatMap (s : String) : bytes s = s.toList.flatMap String.utf8EncodeChar := by
  rw [bytes, String.toUTF8, ← String.utf8Encode_toList, List.utf8Encode, List.data_toByteArray]

theorem bytes_ofList (cs : List Char) :
    bytes (String.ofList cs) = cs.flatMap String.utf8EncodeChar := by
  rw [bytes_eq_flatMap, String.toList_ofList]

theorem length_bytes (s : String) : (bytes s).length = s.utf8ByteSize := by
  simp [bytes]

/-! ## The first byte of a character -/

theorem utf8EncodeChar_of_lt {c : Char} (h : c.toNat < 128) :
    String.utf8EncodeChar c = [UInt8.ofNat c.toNat] := by
  have hle : c.val.toNat ≤ 127 := Nat.le_of_lt_succ h
  rw [String.utf8EncodeChar]
  exact if_pos hle

theorem exists_utf8EncodeChar_of_le {c : Char} (h : 128 ≤ c.toNat) :
    ∃ b bs, String.utf8EncodeChar c = b :: bs ∧ 128 ≤ b.toNat := by
  have hnot : ¬ c.val.toNat ≤ 127 := Nat.not_le_of_lt h
  unfold String.utf8EncodeChar
  dsimp only
  rw [if_neg hnot]
  -- two, three or four bytes; the first one has its highest bit set in each case
  split_ifs
  · refine ⟨_, _, rfl, ?_⟩
    rw [UInt8.toNat_ofNat']
    omega
  · refine ⟨_, _, rfl, ?_⟩
    rw [UInt8.toNat_ofNat']
    omega
  · refine ⟨_, _, rfl, ?_⟩
    rw [UInt8.toNat_ofNat']
    omega

/-! ## Characters below 128, by their bytes -/

/-- The first byte of a text says whether it begins with a character below 128. -/
theorem head?_bytes_ofList_eq_some_iff {a : Char} (ha : a.toNat < 128) (cs : List Char) :
    (bytes (String.ofList cs)).head? = some (UInt8.ofNat a.toNat) ↔ cs.head? = some a := by
  rw [bytes_ofList]
  cases cs with
  | nil => simp
  | cons c cs =>
    rw [List.flatMap_cons, List.head?_cons, Option.some_inj]
    by_cases hc : c.toNat < 128
    · rw [utf8EncodeChar_of_lt hc, List.singleton_append, List.head?_cons, Option.some_inj]
      constructor
      · intro h
        have hbyte := congrArg UInt8.toNat h
        rw [UInt8.toNat_ofNat', UInt8.toNat_ofNat'] at hbyte
        exact Char.toNat_inj.1 (by omega)
      · rintro rfl
        rfl
    · obtain ⟨b, bs, hbytes, hb⟩ := exists_utf8EncodeChar_of_le (Nat.le_of_not_lt hc)
      rw [hbytes, List.cons_append, List.head?_cons, Option.some_inj]
      constructor
      · rintro rfl
        rw [UInt8.toNat_ofNat'] at hb
        omega
      · rintro rfl
        exact absurd ha hc

section

variable {p : Char → Bool} {q : UInt8 → Bool}

/-- The longest run of characters of a class below 128 is as long as the longest run of bytes of the
class. -/
theorem length_takeWhile_bytes_ofList (hp : ∀ c, p c = true → c.toNat < 128)
    (hq : ∀ c : Char, c.toNat < 128 → q (UInt8.ofNat c.toNat) = p c)
    (hhigh : ∀ b : UInt8, 128 ≤ b.toNat → q b = false) (cs : List Char) :
    ((bytes (String.ofList cs)).takeWhile q).length = (cs.takeWhile p).length := by
  rw [bytes_ofList]
  induction cs with
  | nil => rfl
  | cons c cs ih =>
    rw [List.flatMap_cons]
    by_cases hc : c.toNat < 128
    · rw [utf8EncodeChar_of_lt hc, List.singleton_append, List.takeWhile_cons,
        List.takeWhile_cons, hq c hc]
      cases p c with
      | true => exact congrArg (· + 1) ih
      | false => rfl
    · have hnone : p c = false := Bool.eq_false_iff.2 fun h => hc (hp c h)
      obtain ⟨b, bs, hbytes, hb⟩ := exists_utf8EncodeChar_of_le (Nat.le_of_not_lt hc)
      rw [hbytes, List.cons_append, List.takeWhile_cons, List.takeWhile_cons, hhigh b hb, hnone]
      rfl

/-- Characters below 128 at the beginning of a text end between two characters, after as many bytes
as they are. -/
theorem isValid_of_ascii {cs : List Char} (hcs : ∀ c ∈ cs, c.toNat < 128) (rest : List Char) :
    String.Pos.Raw.IsValid (String.ofList (cs ++ rest)) ⟨cs.length⟩ := by
  have hsize : (String.ofList cs).utf8ByteSize = cs.length := by
    rw [← length_bytes, bytes_ofList]
    induction cs with
    | nil => rfl
    | cons c cs ih =>
      obtain ⟨hc, hcs⟩ := List.forall_mem_cons.1 hcs
      rw [List.flatMap_cons, utf8EncodeChar_of_lt hc, List.singleton_append, List.length_cons,
        List.length_cons, ih hcs]
  rw [String.Pos.Raw.isValid_iff_exists_append]
  refine ⟨String.ofList cs, String.ofList rest, String.ofList_append, ?_⟩
  rw [← hsize]
  rfl

end

end DeclCatalog.Text
