import DeclCatalog.Term.Kind

/-!
# Kinds and their tags

A kind is written as a plain tag and every text is read as some kind. The two tables are inverse to
each other but for one overlap: a name is written as it is, so a name that spells another kind is
read as that kind.

- `Kind.builtins`, `Kind.IsTaken`: the kinds with a tag of their own, and the names that are read as
  another kind.
- `Kind.isTaken_iff`: what a taken name is read as.
- `Kind.text_ofText`: **no text is altered**, whatever kind it is read as.
- `Kind.canon`: the kind that the written form of a kind denotes; it is written alike
  (`Kind.text_canon`).
- `Kind.isCanonical_iff`: **only names can fail to be canonical**, and a name does exactly when it
  is taken.
- `Kind.tag_codec_is_retraction`: both tables together.
-/

namespace DeclCatalog

namespace Kind

/-- The kinds with a tag of their own. -/
def builtins : List Kind :=
  [.any, .boolean, .function, .intersection, .literal, .null, .number, .parenthesized, .string,
   .undefined, .union, .void, .never, .symbol, .bigint, .object, .array, .tuple, .set, .map,
   .castAs, .this, .unknownKeyword, .unknown]

/-- A name that is read as another kind: it spells a built-in tag or an unknown value. -/
def IsTaken (name : String) : Prop :=
  name ∈ builtins.map tag ∨ unknownMark.toList <+: name.toList

instance (name : String) : Decidable (IsTaken name) :=
  inferInstanceAs (Decidable (_ ∨ _))

/-- The kind that the written form of a kind denotes. -/
def canon (kind : Kind) : Kind :=
  ofText kind.text

theorem canon_eq_self_iff {kind : Kind} : kind.canon = kind ↔ kind.IsCanonical :=
  Iff.rfl

/-! ## Reading -/

theorem ofText_tag_of_mem {kind : Kind} (h : kind ∈ builtins) : ofText kind.tag = kind := by
  have hall : ∀ k ∈ builtins, ofText k.tag = k := by decide
  exact hall kind h

theorem ofText_of_not_mem {s : String} (h : s ∉ builtins.map tag) : ofText s = ofOtherText s := by
  unfold ofText
  split <;> first | rfl | exact absurd (by decide) h

/-- No built-in tag starts like an unknown value. -/
theorem not_mem_tags_of_unknownMark {s : String} (h : unknownMark.toList <+: s.toList) :
    s ∉ builtins.map tag := by
  have hall : ∀ t ∈ builtins.map tag, ¬ unknownMark.toList <+: t.toList := by decide
  exact fun hmem => hall s hmem h

theorem unknownMark_prefix_append (s : String) :
    unknownMark.toList <+: (unknownMark ++ s).toList := by
  rw [String.toList_append]
  exact List.prefix_append _ _

theorem ofText_unknownMark_append (s : String) : ofText (unknownMark ++ s) = .unknownValue s := by
  have hprefix := unknownMark_prefix_append s
  rw [ofText_of_not_mem (not_mem_tags_of_unknownMark hprefix), ofOtherText,
    if_pos (List.isPrefixOf_iff_prefix.2 hprefix), String.toList_append, ← String.length_toList,
    List.drop_left, String.ofList_toList]

theorem exists_eq_unknownMark_append {s : String} (h : unknownMark.toList <+: s.toList) :
    ∃ rest, s = unknownMark ++ rest := by
  obtain ⟨rest, hrest⟩ := h
  refine ⟨String.ofList rest, ?_⟩
  rw [← String.toList_inj, String.toList_append, String.toList_ofList, hrest]

theorem ofText_of_not_isTaken {s : String} (h : ¬ IsTaken s) : ofText s = .named s := by
  obtain ⟨htag, hmark⟩ := not_or.1 h
  rw [ofText_of_not_mem htag, ofOtherText, if_neg (mt List.isPrefixOf_iff_prefix.1 hmark)]

/-- The taken names are the built-in tags and what an unknown value is written as, and each is read
as the kind that it spells. -/
theorem isTaken_iff {name : String} :
    IsTaken name ↔
      (∃ kind ∈ builtins, kind.tag = name ∧ ofText name = kind) ∨
      ∃ rest, unknownMark ++ rest = name ∧ ofText name = .unknownValue rest := by
  constructor
  · rintro (htag | hmark)
    · obtain ⟨kind, hkind, rfl⟩ := List.mem_map.1 htag
      exact .inl ⟨kind, hkind, rfl, ofText_tag_of_mem hkind⟩
    · obtain ⟨rest, rfl⟩ := exists_eq_unknownMark_append hmark
      exact .inr ⟨rest, rfl, ofText_unknownMark_append rest⟩
  · rintro (⟨kind, hkind, rfl, -⟩ | ⟨rest, rfl, -⟩)
    · exact .inl (List.mem_map_of_mem hkind)
    · exact .inr (unknownMark_prefix_append rest)

/-- What is read as a name is not taken. -/
theorem ofText_ne_named_of_isTaken {s : String} (h : IsTaken s) (name : String) :
    ofText s ≠ .named name := by
  obtain ⟨kind, hkind, -, hread⟩ | ⟨rest, -, hread⟩ := isTaken_iff.1 h
  · have hall : ∀ k ∈ builtins, k ≠ .named k.tag := by decide
    rw [hread]
    rintro rfl
    exact hall (.named name) hkind rfl
  · rw [hread]
    exact Kind.noConfusion

/-! ## Writing what was read -/

/-- A text is the written form of the kind that is read from it. -/
@[simp] theorem text_ofText (s : String) : (ofText s).text = s := by
  by_cases htaken : IsTaken s
  · obtain ⟨kind, hkind, htag, hread⟩ | ⟨rest, hmark, hread⟩ := isTaken_iff.1 htaken
    · have hall : ∀ k ∈ builtins, k.text = k.tag := by decide
      rw [hread, hall kind hkind, htag]
    · rw [hread, ← hmark]
      rfl
  · rw [ofText_of_not_isTaken htaken]
    rfl

/-- Different texts are read as different kinds. -/
theorem ofText_injective : Function.Injective ofText :=
  Function.LeftInverse.injective text_ofText

/-! ## Reading what was written -/

/-- A kind and its canonical form are written alike. -/
@[simp] theorem text_canon (kind : Kind) : kind.canon.text = kind.text :=
  text_ofText kind.text

/-- Whatever is read is canonical. -/
theorem isCanonical_ofText (s : String) : (ofText s).IsCanonical := by
  rw [IsCanonical, text_ofText]

/-- Writing and reading once makes a kind canonical. -/
theorem canon_canon (kind : Kind) : kind.canon.canon = kind.canon :=
  isCanonical_ofText kind.text

theorem isCanonical_unknownValue (nodeKind : String) : (unknownValue nodeKind).IsCanonical :=
  ofText_unknownMark_append nodeKind

/-- A name is canonical when it is not taken. -/
theorem isCanonical_named_iff {name : String} : (named name).IsCanonical ↔ ¬ IsTaken name :=
  ⟨fun h htaken => ofText_ne_named_of_isTaken htaken name h, ofText_of_not_isTaken⟩

/-- Only a name can fail to be canonical, and it does when it is taken. -/
theorem isCanonical_iff {kind : Kind} :
    kind.IsCanonical ↔ ∀ name, kind = .named name → ¬ IsTaken name := by
  cases kind with
  | named name => simp [isCanonical_named_iff]
  | unknownValue nodeKind => simp [isCanonical_unknownValue]
  | _ => exact ⟨fun _ _ h => (nomatch h), fun _ => by decide⟩

theorem isCanonical_of_ne_named {kind : Kind} (h : ∀ name, kind ≠ .named name) :
    kind.IsCanonical :=
  isCanonical_iff.2 fun name hkind => absurd hkind (h name)

/-- **Writing undoes reading, and reading undoes writing but for taken names.** Every text is the
written form of the kind that is read from it, so different texts are read as different kinds. A
kind is read back as it is unless it is a taken name: one of the 24 built-in tags, or a text that
starts with the mark of an unknown value. Such a name is read as the kind that it spells, which is
written as the same name. So a kind that was written and read once does not change any more. -/
theorem tag_codec_is_retraction :
    (∀ s, (ofText s).text = s) ∧ Function.Injective ofText ∧
      (∀ kind : Kind, kind.canon = kind ↔ ¬ ∃ name, kind = .named name ∧ IsTaken name) ∧
      (builtins.map tag).Nodup ∧ (builtins.map tag).length = 24 ∧
      (∀ name, IsTaken name ↔
        (∃ kind ∈ builtins, kind.tag = name ∧ (named name).canon = kind) ∨
        ∃ rest, unknownMark ++ rest = name ∧ (named name).canon = .unknownValue rest) ∧
      (∀ name, (named name).canon.text = name) ∧
      ∀ kind : Kind, kind.canon.canon = kind.canon ∧ kind.canon.text = kind.text := by
  refine ⟨text_ofText, ofText_injective, ?_, by decide, rfl, fun _ => isTaken_iff, text_ofText, ?_⟩
  · intro kind
    rw [canon_eq_self_iff, isCanonical_iff]
    simp only [not_exists, not_and]
  · exact fun kind => ⟨canon_canon kind, text_canon kind⟩

-- the mark alone is the unknown value of an empty node kind; without its blank it is a name
example : (named "unknown: ").canon = .unknownValue "" ∧
    (named "unknown:").canon = .named "unknown:" := by
  decide

end Kind

end DeclCatalog
