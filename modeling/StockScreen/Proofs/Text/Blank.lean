import Mathlib.Data.List.DropRight
import StockScreen.Text.Basic

/-! # Texts without blanks around them

Trimming leaves a text without a blank at either end, and leaves such a text as
it is.
-/

namespace StockScreen.Text

variable {c : Char} {cs : List Char}

theorem isBlank_of_ascii (hlow : 0x20 < c.toNat) (hhigh : c.toNat < 0x7F) : isBlank c = false := by
  simp only [isBlank, Bool.or_eq_false_iff, Bool.and_eq_false_iff, decide_eq_false_iff_not,
    beq_eq_false_iff_ne]
  omega

/-- There is a blank neither at the beginning nor at the end. -/
structure Trimmed (cs : List Char) : Prop where
  head : ∀ c ∈ cs.head?, isBlank c = false
  last : ∀ c ∈ cs.getLast?, isBlank c = false

theorem dropWhile_of_head (h : ∀ c ∈ cs.head?, isBlank c = false) : cs.dropWhile isBlank = cs := by
  cases cs with
  | nil => rfl
  | cons c cs => exact List.dropWhile_cons_of_neg (by simpa using h c rfl)

theorem rdropWhile_of_last (h : ∀ c ∈ cs.getLast?, isBlank c = false) :
    cs.rdropWhile isBlank = cs := by
  rw [List.rdropWhile, dropWhile_of_head (by simpa using h), List.reverse_reverse]

theorem trimChars_eq_rdropWhile (cs : List Char) :
    trimChars cs = (cs.dropWhile isBlank).rdropWhile isBlank := rfl

theorem Trimmed.trimChars_eq (h : Trimmed cs) : trimChars cs = cs := by
  rw [trimChars_eq_rdropWhile, dropWhile_of_head h.head, rdropWhile_of_last h.last]

theorem trimmed_singleton (h : isBlank c = false) : Trimmed [c] where
  head _ hc := Option.some.inj hc ▸ h
  last _ hc := Option.some.inj hc ▸ h

theorem Trimmed.append {before after : List Char} (hbefore : Trimmed before)
    (hafter : Trimmed after) (h : before ≠ []) (h' : after ≠ []) (cs : List Char) :
    Trimmed (before ++ cs ++ after) where
  head c hc := by
    obtain ⟨first, rest, rfl⟩ := List.exists_cons_of_ne_nil h
    exact hbefore.head c hc
  last c hc := by
    rw [List.getLast?_append_of_ne_nil _ h'] at hc
    exact hafter.last c hc

theorem Trimmed.trimChars_padded (h : Trimmed cs) (before after : List Char)
    (hbefore : ∀ c ∈ before, isBlank c) (hafter : ∀ c ∈ after, isBlank c) :
    trimChars (before ++ cs ++ after) = cs := by
  rw [trimChars_eq_rdropWhile, List.append_assoc, List.dropWhile_append_of_pos hbefore]
  cases cs with
  | nil =>
    rw [List.nil_append, List.dropWhile_eq_nil_iff.mpr hafter]
    rfl
  | cons c rest =>
    have hhead : ∀ d ∈ (c :: rest ++ after).head?, isBlank d = false := h.head
    rw [dropWhile_of_head hhead, List.rdropWhile, List.reverse_append,
      List.dropWhile_append_of_pos (by simpa using hafter)]
    exact rdropWhile_of_last h.last

theorem trimmed_trimChars (cs : List Char) : Trimmed (trimChars cs) where
  head c hc := by
    -- What is dropped at the end leaves the first character, if it leaves any.
    obtain ⟨rest, hrest⟩ := List.rdropWhile_prefix isBlank (cs.dropWhile isBlank)
    have hfirst : (cs.dropWhile isBlank).head? = some c := by
      rw [← hrest, List.head?_append]
      exact Option.or_eq_some_iff.mpr (.inl hc)
    simpa [hfirst] using List.head?_dropWhile_not isBlank cs
  last c hc := by
    have hlast : ((cs.dropWhile isBlank).reverse.dropWhile isBlank).head? = some c := by
      rwa [trimChars, List.getLast?_reverse] at hc
    simpa [hlast] using List.head?_dropWhile_not isBlank (cs.dropWhile isBlank).reverse

theorem exists_padding (cs : List Char) :
    ∃ before after, (∀ c ∈ before, isBlank c) ∧ (∀ c ∈ after, isBlank c) ∧
      cs = before ++ trimChars cs ++ after := by
  refine ⟨cs.takeWhile isBlank, (cs.dropWhile isBlank).rtakeWhile isBlank,
    fun c => List.mem_takeWhile_imp, fun c => List.mem_rtakeWhile_imp, ?_⟩
  rw [trimChars_eq_rdropWhile, List.append_assoc, List.rdropWhile_append_rtakeWhile,
    List.takeWhile_append_dropWhile]

theorem trim_ne_empty {s : String} (hc : c ∈ s.toList) (h : isBlank c = false) : trim s ≠ "" := by
  obtain ⟨before, after, hbefore, hafter, hs⟩ := exists_padding s.toList
  intro htrim
  have hnil : trimChars s.toList = [] := String.ofList_eq_empty_iff.mp htrim
  rw [hs, hnil, List.append_nil, List.mem_append] at hc
  have hblank : isBlank c := hc.elim (hbefore c) (hafter c)
  rw [h] at hblank
  cases hblank

theorem trim_trim (s : String) : trim (trim s) = trim s := by
  rw [trim, trim, String.toList_ofList, (trimmed_trimChars _).trimChars_eq]

end StockScreen.Text
