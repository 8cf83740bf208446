import Mathlib.Data.List.Forall2
import PacketPolicy.Proofs.Text.Bytes
import PacketPolicy.Proofs.Text.Unbroken
import PacketPolicy.Render.Filter

namespace PacketPolicy
namespace Comment

theorem mem_sanitize (h : c ∈ (sanitize s).toList) :
    c = ' ' ∨ c = '\'' ∨ (c ∈ s.toList ∧ Text.isBlank c = false ∧ c ≠ '"') := by
  simp only [sanitize, String.toList_ofList] at h
  obtain ⟨d, hd, hcd⟩ := List.mem_map.mp (Text.mem_of_mem_takeBytes h)
  split at hcd
  . exact .inr (.inl hcd.symm)
  next hquote =>
    subst hcd
    obtain hspace | ⟨hmem, hblank⟩ := Text.mem_squeeze hd
    . exact .inl hspace
    . exact .inr (.inr ⟨hmem, hblank, by simpa using hquote⟩)

theorem doubleQuote_not_mem_sanitize (s : String) : '"' ∉ (sanitize s).toList := by
  intro hmem
  obtain h | h | ⟨-, -, h⟩ := mem_sanitize hmem
  . exact absurd h (by decide)
  . exact absurd h (by decide)
  . exact h rfl

theorem eq_space_of_mem_sanitize (h : c ∈ (sanitize s).toList) (hblank : Text.isBlank c = true) :
    c = ' ' := by
  obtain hspace | rfl | ⟨-, hvisible, -⟩ := mem_sanitize h
  . exact hspace
  . exact absurd hblank (by decide)
  . simp [hblank] at hvisible

theorem exists_sanitize_of_mem_lines (h : text ∈ lines comments owner) :
    ∃ s, text = sanitize s ∧ (s ∈ comments ∨ s = "Owner: " ++ owner) := by
  simp only [lines, List.mem_append, List.mem_filter, List.mem_map] at h
  obtain ⟨⟨s, hs, rfl⟩, -⟩ | h := h
  . exact ⟨s, rfl, .inl hs⟩
  . split at h
    . simp at h
    . exact ⟨_, List.mem_singleton.mp h, .inr rfl⟩

theorem doubleQuote_not_mem_of_mem_lines (h : text ∈ lines comments owner) : '"' ∉ text.toList := by
  obtain ⟨s, rfl, -⟩ := exists_sanitize_of_mem_lines h
  exact doubleQuote_not_mem_sanitize s

theorem newline_not_mem_of_mem_lines (h : text ∈ lines comments owner) : '\n' ∉ text.toList := by
  obtain ⟨s, rfl, -⟩ := exists_sanitize_of_mem_lines h
  intro hmem
  exact absurd (eq_space_of_mem_sanitize hmem (by decide)) (by decide)

def mark (c : Char) : Char :=
  if c == '"' then '\'' else c

theorem mark_eq_space_iff : mark c = ' ' ↔ c = ' ' := by
  unfold mark
  split
  . simp_all
  . rfl

theorem toList_sanitize (s : String) :
    (sanitize s).toList = Text.takeBytes maxBytes ((Text.squeeze s).toList.map mark) := by
  rw [sanitize, String.toList_ofList]
  rfl

def OneLine (s line : String) : Prop :=
  ∃ ws, Text.Worded s.toList ws ∧ line.toList = (String.intercalate " " ws).toList.map mark

/--
What a document has of a comment: the start of its line up to the last character that fits.
-/
structure Shortened (s t : String) : Prop where
  made : ∃ line, OneLine s line
  cut : ∀ line, OneLine s line → ∃ p, Text.CutAt 255 line t p

theorem shortened_sanitize (s : String) : Shortened s (sanitize s) := by
  constructor
  . exact ⟨String.ofList ((Text.squeeze s).toList.map mark), _, Text.words_eq_iff.mp rfl,
      String.toList_ofList⟩
  . rintro line ⟨ws, hws, hline⟩
    obtain rfl := Text.words_eq_iff.mpr hws
    have htruncate : sanitize s = Text.truncate line 255 := by
      rw [← String.toList_inj, toList_sanitize, Text.truncate, String.toList_ofList, hline]
      rfl
    rw [htruncate]
    exact ⟨_, Text.cutAt_truncate line 255⟩

structure Shaped (t : String) : Prop where
  nonempty : t ≠ ""
  fits : t.utf8ByteSize ≤ 255
  unquoted : '"' ∉ t.toList
  blanks : ∀ c ∈ t.toList, Text.isBlank c = true → c = ' '
  single : ¬[' ', ' '] <:+: t.toList
  start : ¬[' '] <+: t.toList

def hasText (s : String) : Bool :=
  s.toList.any fun c => !Text.isBlank c

theorem sanitize_eq_empty_iff : sanitize s = "" ↔ hasText s = false := by
  rw [← String.toList_eq_nil_iff, toList_sanitize, Text.takeBytes_eq_nil_iff (by decide),
    List.map_eq_nil_iff, String.toList_eq_nil_iff, Text.squeeze_eq_empty_iff]
  simp [hasText]

theorem isChain_map_mark (s : String) :
    ((Text.squeeze s).toList.map mark).IsChain fun c d => ¬(c = ' ' ∧ d = ' ') := by
  rw [List.isChain_map]
  apply (Text.tight_squeeze s).apart.imp
  rintro c d hapart ⟨hc, hd⟩
  rw [mark_eq_space_iff] at hc hd
  subst hc hd
  exact absurd hapart (by decide)

theorem not_space_start_map_mark (s : String) : ¬[' '] <+: (Text.squeeze s).toList.map mark := by
  intro h
  cases hchars : (Text.squeeze s).toList with
  | nil => simp [hchars] at h
  | cons c cs =>
    rw [hchars, List.map_cons, List.cons_prefix_cons] at h
    have hfirst : Text.isBlank c = false := (Text.tight_squeeze s).first c (by simp [hchars])
    rw [mark_eq_space_iff.mp h.1.symm] at hfirst
    exact absurd hfirst (by decide)

theorem shaped_sanitize (h : hasText s = true) : Shaped (sanitize s) := by
  have hline : (sanitize s).toList <+: (Text.squeeze s).toList.map mark := by
    rw [toList_sanitize]
    apply Text.takeBytes_prefix
  constructor
  . rw [ne_eq, sanitize_eq_empty_iff, h]
    decide
  . rw [Text.utf8ByteSize_eq_byteSize, toList_sanitize]
    exact Text.byteSize_takeBytes_le 255 _
  . exact doubleQuote_not_mem_sanitize s
  . exact fun c hc => eq_space_of_mem_sanitize hc
  . intro hspaces
    have hchain := List.IsChain.infix (isChain_map_mark s) (hspaces.trans hline.isInfix)
    simp at hchain
  . intro hspace
    exact not_space_start_map_mark s (hspace.trans hline)

theorem lines_eq_map_sanitize (comments : List String) (owner : String) :
    lines comments owner =
      (comments.filter hasText ++ if owner = "" then [] else ["Owner: " ++ owner]).map
        sanitize := by
  have hkept : (· != "") ∘ sanitize = hasText := by
    funext s
    rw [Function.comp, Bool.eq_iff_iff, bne_iff_ne, ne_eq, sanitize_eq_empty_iff, Bool.not_eq_false]
  rw [lines, List.filter_map, hkept, List.map_append]
  by_cases howner : owner = "" <;> simp [howner]

theorem hasText_owner (owner : String) : hasText ("Owner: " ++ owner) = true := by
  rw [hasText, String.toList_append, List.any_append, Bool.or_eq_true]
  exact .inl (by decide)

/--
The comments that are not blank and then the owner, if there is one, are shortened to a line each.
No line is empty, too long or starts with a space, and none has double quotes or other white space
than single spaces.
-/
theorem lines_shaped (comments : List String) (owner : String) :
    (∀ t ∈ lines comments owner, Shaped t)
      ∧ (lines comments owner).length = comments.countP hasText + (if owner = "" then 0 else 1)
      ∧ List.Forall₂ Shortened
        (comments.filter hasText ++ if owner = "" then [] else ["Owner: " ++ owner])
          (lines comments owner) := by
  rw [lines_eq_map_sanitize]
  refine ⟨?_, ?_, ?_⟩
  . rw [List.forall_mem_map]
    intro s hs
    apply shaped_sanitize
    rw [List.mem_append] at hs
    obtain hs | hs := hs
    . exact List.of_mem_filter hs
    . split at hs
      . simp at hs
      . rw [List.mem_singleton.mp hs]
        exact hasText_owner owner
  . rw [List.length_map, List.length_append, List.countP_eq_length_filter]
    split <;> rfl
  . rw [List.forall₂_map_right_iff, List.forall₂_same]
    intro s _
    exact shortened_sanitize s

example : lines ["  say\t\"hi\"\u3000", "\u00a0"] "ops" = ["say 'hi'", "Owner: ops"] := by
  decide +kernel

end Comment
end PacketPolicy
