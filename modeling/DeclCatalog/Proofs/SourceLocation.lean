import DeclCatalog.Tree.Source

/-!
# Where a node stands

The line and the column of a node are counts over the bytes before it. Here they are said by the
lines themselves: the bytes before a node are the lines before its own, each with its line feed, and
what stands before it in its own line.

- `Lines`: bytes as lines and a last line without a line feed. Bytes are lines in exactly one way
  (`exists_lines`, `Lines.count_eq`, `Lines.takeWhile_eq`).
- `StandsAt`: where a node stands in a file, by the bytes of the file alone.
- `standsAt_iff`: **a node stands at its location, and nowhere else**.
-/

namespace DeclCatalog

/-! ## Lines -/

/-- The bytes are some lines, each with the line feed that ends it, and a last line without one. -/
structure Lines (bytes : List UInt8) (lines : List (List UInt8)) (last : List UInt8) : Prop where
  bytes_eq : bytes = (lines.flatMap fun line => line ++ [10]) ++ last
  no_feed : ∀ line ∈ lines, 10 ∉ line
  no_feed_last : 10 ∉ last

theorem exists_lines (bytes : List UInt8) : ∃ lines last, Lines bytes lines last := by
  induction bytes with
  | nil => exact ⟨[], [], rfl, nofun, nofun⟩
  | cons b bytes ih =>
    obtain ⟨lines, last, rfl, hlines, hlast⟩ := ih
    by_cases hfeed : b = 10
    · subst hfeed
      refine ⟨[] :: lines, last, rfl, ?_, hlast⟩
      exact List.forall_mem_cons.2 ⟨nofun, hlines⟩
    · have hne : (10 : UInt8) ≠ b := fun h => hfeed h.symm
      -- the byte belongs to the first line, which may be the last one
      cases lines with
      | nil => exact ⟨[], b :: last, rfl, nofun, by simp [hne, hlast]⟩
      | cons line lines =>
        obtain ⟨hline, hlines⟩ := List.forall_mem_cons.1 hlines
        refine ⟨(b :: line) :: lines, last, rfl, ?_, hlast⟩
        exact List.forall_mem_cons.2 ⟨by simp [hne, hline], hlines⟩

namespace Lines

variable {bytes last : List UInt8} {lines : List (List UInt8)}

/-- There is one line feed to each line but the last. -/
theorem count_eq (h : Lines bytes lines last) : bytes.count 10 = lines.length := by
  obtain ⟨rfl, hlines, hlast⟩ := h
  rw [List.count_append, List.count_eq_zero.2 hlast, Nat.add_zero]
  induction lines with
  | nil => rfl
  | cons line lines ih =>
    obtain ⟨hline, hlines⟩ := List.forall_mem_cons.1 hlines
    rw [List.flatMap_cons, List.count_append, List.count_append, List.count_eq_zero.2 hline,
      ih hlines, List.length_cons, List.count_singleton_self]
    omega

/-- The last line is what stands behind all line feeds. -/
theorem takeWhile_eq (h : Lines bytes lines last) :
    bytes.reverse.takeWhile (· != 10) = last.reverse := by
  obtain ⟨rfl, -, hlast⟩ := h
  have hall : ∀ b ∈ last.reverse, (b != 10) = true := by
    intro b hb
    rw [bne_iff_ne]
    rintro rfl
    exact hlast (List.mem_reverse.1 hb)
  rw [List.reverse_append, List.takeWhile_append_of_pos hall]
  -- what comes before the last line is nothing, or ends with a line feed
  rcases List.eq_nil_or_concat lines with rfl | ⟨lines, line, rfl⟩
  · simp
  · simp [List.flatMap_append]

end Lines

/-! ## Places -/

/-- A node of a file stands at a location: the location has the file's path, the number of bytes
before the node and of those it covers, and the line and the column that the bytes before it make.
-/
structure StandsAt (src : Source) (n : Node) (l : Location) : Prop where
  file : l.file = src.path
  offset : l.offset = n.head.start
  length : l.length = n.head.stop - n.head.start
  position : ∃ lines last, Lines (src.bytes.data.toList.take n.head.start) lines last ∧
    l.line = lines.length + 1 ∧ l.column = last.length + 1

/-- A node stands at its location, and nowhere else. -/
theorem standsAt_iff {src : Source} {n : Node} {l : Location} :
    StandsAt src n l ↔ l = src.location n := by
  have hbefore : (src.bytes.extract 0 n.head.start).data.toList =
      src.bytes.data.toList.take n.head.start := by
    rw [ByteArray.data_extract, Array.toList_extract, List.extract_eq_take_drop, List.drop_zero,
      Nat.sub_zero]
  have hposition : ∀ {lines last},
      Lines (src.bytes.data.toList.take n.head.start) lines last →
        src.line n.head.start = lines.length + 1 ∧ src.column n.head.start = last.length + 1 := by
    intro lines last hlines
    rw [Source.line, Source.column, hbefore, hlines.count_eq, hlines.takeWhile_eq,
      List.length_reverse]
    exact ⟨rfl, rfl⟩
  constructor
  · rintro ⟨hfile, hoffset, hlength, lines, last, hlines, hline, hcolumn⟩
    obtain ⟨hline', hcolumn'⟩ := hposition hlines
    cases l
    simp_all [Source.location]
  · rintro rfl
    obtain ⟨lines, last, hlines⟩ := exists_lines (src.bytes.data.toList.take n.head.start)
    exact ⟨rfl, rfl, rfl, lines, last, hlines, hposition hlines⟩

end DeclCatalog
