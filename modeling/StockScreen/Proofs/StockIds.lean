import Mathlib.Data.List.Forall2
import Mathlib.Data.List.Nodup
import StockScreen.Proofs.Lists
import StockScreen.Proofs.Text.Blank
import StockScreen.StockIds

/-! # Lists of stock ids and their texts

A text is read as the ids between its commas, without the blanks around them.
It is refused for its first token that is blank or that stands before. The
lists that are read are those of distinct ids without blanks around them and
without commas, and a list is read from its ids with any blanks around them.
-/

namespace StockScreen

structure Pieces (s : String) (pieces : List (List Char)) : Prop where
  ne_nil : pieces ≠ []
  comma_notMem : ∀ piece ∈ pieces, ',' ∉ piece
  joined : [','].intercalate pieces = s.toList

/-- Ids of which none is blank and no two are the same. -/
structure DistinctIds (ids : List String) : Prop where
  ne_empty : ∀ id ∈ ids, id ≠ ""
  nodup : ids.Nodup

/-- A token that is blank or stands before, with the error for it. -/
inductive Offends (input : String) (before : List String) : String → ScreenError → Prop
  | blank : Offends input before "" (.invalidRule s!"empty stock id in '{input}'")
  | repeated {id : String} (h : id ≠ "") (h' : id ∈ before) :
    Offends input before id (.invalidRule s!"duplicate stock id '{id}'")

structure IdList (ids : List String) : Prop where
  ne_nil : ids ≠ []
  distinct : DistinctIds ids
  trimmed : ∀ id ∈ ids, Text.Trimmed id.toList
  comma_notMem : ∀ id ∈ ids, ',' ∉ id.toList

def Padded (id : String) (piece : List Char) : Prop :=
  ∃ before after, (∀ c ∈ before, Text.isBlank c) ∧ (∀ c ∈ after, Text.isBlank c) ∧
    piece = before ++ id.toList ++ after

variable {s input id : String} {seen before rest ids tokens : List String}
  {pieces : List (List Char)} {piece : List Char} {e : ScreenError}

/-! ## Tokens -/

theorem pieces_splitOn (s : String) : Pieces s (s.toList.splitOn ',') where
  ne_nil := List.splitOn_ne_nil ',' s.toList
  comma_notMem _ := notMem_of_mem_splitOn
  joined := List.intercalate_splitOn ','

theorem Pieces.splitOn_eq (h : Pieces s pieces) : s.toList.splitOn ',' = pieces := by
  rw [← h.joined, List.splitOn_intercalate ',' h.comma_notMem h.ne_nil]

theorem Pieces.commaTokens_eq (h : Pieces s pieces) :
    commaTokens s = pieces.map fun piece => String.ofList (Text.trimChars piece) := by
  rw [commaTokens, h.splitOn_eq]

theorem comma_notMem_of_isBlank {cs : List Char} (h : ∀ c ∈ cs, Text.isBlank c) : ',' ∉ cs :=
  fun hmem => absurd (h ',' hmem) (by decide)

theorem padded_trimChars (piece : List Char) :
    Padded (String.ofList (Text.trimChars piece)) piece := by
  rw [Padded, String.toList_ofList]
  exact Text.exists_padding piece

theorem Padded.trimChars_eq (h : Padded id piece) (hid : Text.Trimmed id.toList) :
    String.ofList (Text.trimChars piece) = id := by
  obtain ⟨before, after, hbefore, hafter, rfl⟩ := h
  rw [hid.trimChars_padded before after hbefore hafter, String.ofList_toList]

theorem Padded.comma_notMem_iff (h : Padded id piece) : ',' ∉ piece ↔ ',' ∉ id.toList := by
  obtain ⟨before, after, hbefore, hafter, rfl⟩ := h
  have hb := comma_notMem_of_isBlank hbefore
  have ha := comma_notMem_of_isBlank hafter
  simp only [List.mem_append, not_or, hb, ha, not_false_eq_true, true_and, and_true]

theorem comma_notMem_of_padded (h : List.Forall₂ Padded ids pieces)
    (hids : ∀ id ∈ ids, ',' ∉ id.toList) : ∀ piece ∈ pieces, ',' ∉ piece := by
  induction h with
  | nil => nofun
  | cons hpiece _ ih =>
    obtain ⟨hid, hrest⟩ := List.forall_mem_cons.mp hids
    exact List.forall_mem_cons.mpr ⟨hpiece.comma_notMem_iff.mpr hid, ih hrest⟩

theorem forall₂_padded (pieces : List (List Char)) :
    List.Forall₂ Padded (pieces.map fun piece => String.ofList (Text.trimChars piece)) pieces :=
  List.forall₂_map_left_iff.mpr (List.forall₂_same.mpr fun piece _ => padded_trimChars piece)

theorem map_trimChars_padded (h : List.Forall₂ Padded ids pieces)
    (hids : ∀ id ∈ ids, Text.Trimmed id.toList) :
    pieces.map (fun piece => String.ofList (Text.trimChars piece)) = ids := by
  induction h with
  | nil => rfl
  | cons hpiece _ ih =>
    obtain ⟨hid, hrest⟩ := List.forall_mem_cons.mp hids
    rw [List.map_cons, hpiece.trimChars_eq hid, ih hrest]

/-! ## The check from the left -/

theorem DistinctIds.of_cons (h : DistinctIds (id :: ids)) :
    id ≠ "" ∧ id ∉ ids ∧ DistinctIds ids := by
  obtain ⟨hid, hids⟩ := List.forall_mem_cons.mp h.ne_empty
  obtain ⟨hnotMem, hnodup⟩ := List.nodup_cons.mp h.nodup
  exact ⟨hid, hnotMem, hids, hnodup⟩

/-- Tokens that are not refused are read ahead of the others. -/
theorem checkStockIds_append (input : String) (rest : List String) (h : DistinctIds before)
    (hnew : ∀ id ∈ before, id ∉ seen) :
    checkStockIds input seen (before ++ rest) =
      (checkStockIds input (before.reverse ++ seen) rest).map (before ++ ·) := by
  induction before generalizing seen with
  | nil =>
    rw [List.nil_append, List.reverse_nil, List.nil_append]
    cases checkStockIds input seen rest <;> rfl
  | cons id before ih =>
    obtain ⟨hid, hnotMem, hbefore⟩ := h.of_cons
    obtain ⟨hseen, hnew⟩ := List.forall_mem_cons.mp hnew
    have hnew' : ∀ x ∈ before, x ∉ id :: seen := by
      intro x hx
      rw [List.mem_cons, not_or]
      refine ⟨?_, hnew x hx⟩
      rintro rfl
      exact hnotMem hx
    rw [List.cons_append, checkStockIds, if_neg hid, if_neg hseen, ih hbefore hnew',
      List.reverse_cons, List.append_assoc, List.singleton_append]
    cases checkStockIds input (before.reverse ++ id :: seen) rest <;> rfl

theorem checkStockIds_of_distinct (h : DistinctIds tokens) :
    checkStockIds input [] tokens = .ok tokens := by
  have hrun := checkStockIds_append input [] h fun _ _ => List.not_mem_nil
  rw [List.append_nil] at hrun
  rw [hrun, checkStockIds, Except.map, List.append_nil]

theorem checkStockIds_of_offends (rest : List String) (h : DistinctIds before)
    (hid : Offends input before id e) :
    checkStockIds input [] (before ++ id :: rest) = .error e := by
  rw [checkStockIds_append input _ h fun _ _ => List.not_mem_nil, List.append_nil]
  cases hid with
  | blank => rw [checkStockIds, if_pos rfl, Except.map]
  | repeated hne hmem =>
    rw [checkStockIds, if_neg hne, if_pos (List.mem_reverse.mpr hmem), Except.map]

theorem distinct_or_offends (input : String) (tokens : List String) :
    DistinctIds tokens ∨ ∃ before id rest e, tokens = before ++ id :: rest ∧
      DistinctIds before ∧ Offends input before id e := by
  induction tokens using List.reverseRecOn with
  | nil => exact .inl ⟨nofun, List.nodup_nil⟩
  | append_singleton tokens id ih =>
    rcases ih with htokens | ⟨before, first, rest, e, rfl, hbefore, hfirst⟩
    · by_cases hid : id = ""
      · subst hid
        exact .inr ⟨tokens, "", [], _, rfl, htokens, .blank⟩
      by_cases hmem : id ∈ tokens
      · exact .inr ⟨tokens, id, [], _, rfl, htokens, .repeated hid hmem⟩
      refine .inl ⟨?_, List.nodup_append.mpr ⟨htokens.nodup, List.nodup_singleton id, ?_⟩⟩
      · rw [List.forall_mem_append, List.forall_mem_singleton]
        exact ⟨htokens.ne_empty, hid⟩
      · rintro x hx y hy rfl
        exact hmem (List.mem_singleton.mp hy ▸ hx)
    · exact .inr ⟨before, first, rest ++ [id], e, by simp, hbefore, hfirst⟩

theorem readStockIds_eq_ok_iff :
    readStockIds s = .ok ids ↔ DistinctIds (commaTokens s) ∧ ids = commaTokens s := by
  rw [readStockIds]
  rcases distinct_or_offends s (commaTokens s) with h | ⟨before, id, rest, e, hsplit, hbefore, hid⟩
  · rw [checkStockIds_of_distinct h, Except.ok.injEq, and_iff_right h, eq_comm]
  · have herror := checkStockIds_of_offends rest hbefore hid
    rw [← hsplit] at herror
    rw [herror]
    refine iff_of_false nofun fun ⟨h, _⟩ => ?_
    rw [checkStockIds_of_distinct h] at herror
    cases herror

theorem readStockIds_eq_error_iff :
    readStockIds s = .error e ↔ ∃ before id rest, commaTokens s = before ++ id :: rest ∧
      DistinctIds before ∧ Offends s before id e := by
  constructor
  · intro h
    rcases distinct_or_offends s (commaTokens s) with htokens | ⟨before, id, rest, e', hsplit,
      hbefore, hid⟩
    · cases h.symm.trans (readStockIds_eq_ok_iff.mpr ⟨htokens, rfl⟩)
    · have herror := checkStockIds_of_offends rest hbefore hid
      rw [← hsplit] at herror
      cases h.symm.trans herror
      exact ⟨before, id, rest, hsplit, hbefore, hid⟩
  · rintro ⟨before, id, rest, hsplit, hbefore, hid⟩
    rw [readStockIds, hsplit]
    exact checkStockIds_of_offends rest hbefore hid

/-! ## The lists that are read -/

theorem idList_commaTokens (h : DistinctIds (commaTokens s)) : IdList (commaTokens s) := by
  have hpieces := pieces_splitOn s
  refine ⟨?_, h, ?_, ?_⟩
  · rw [hpieces.commaTokens_eq, ne_eq, List.map_eq_nil_iff]
    exact hpieces.ne_nil
  · rw [hpieces.commaTokens_eq, List.forall_mem_map]
    intro piece _
    rw [String.toList_ofList]
    exact Text.trimmed_trimChars piece
  · rw [hpieces.commaTokens_eq, List.forall_mem_map]
    intro piece hpiece
    exact (padded_trimChars piece).comma_notMem_iff.mp (hpieces.comma_notMem piece hpiece)

theorem pieces_of_padded (hids : IdList ids) (h : List.Forall₂ Padded ids pieces)
    (hjoined : [','].intercalate pieces = s.toList) : Pieces s pieces where
  ne_nil := by
    rintro rfl
    exact hids.ne_nil (List.forall₂_nil_right_iff.mp h)
  comma_notMem := comma_notMem_of_padded h hids.comma_notMem
  joined := hjoined

theorem readStockIds_eq_ok_iff_padded :
    readStockIds s = .ok ids ↔ IdList ids ∧
      ∃ pieces, List.Forall₂ Padded ids pieces ∧ [','].intercalate pieces = s.toList := by
  rw [readStockIds_eq_ok_iff]
  constructor
  · rintro ⟨hdistinct, rfl⟩
    refine ⟨idList_commaTokens hdistinct, _, ?_, (pieces_splitOn s).joined⟩
    rw [(pieces_splitOn s).commaTokens_eq]
    exact forall₂_padded _
  · rintro ⟨hids, pieces, hpadded, hjoined⟩
    have htokens : commaTokens s = ids := by
      rw [(pieces_of_padded hids hpadded hjoined).commaTokens_eq,
        map_trimChars_padded hpadded hids.trimmed]
    exact ⟨htokens ▸ hids.distinct, htokens.symm⟩

structure ReadsIds (s : String) : Prop where
  divided : ∃ pieces, Pieces s pieces
  tokens : ∀ pieces, Pieces s pieces →
    commaTokens s = pieces.map fun piece => String.ofList (Text.trimChars piece)
  accepted : ∀ ids, readStockIds s = .ok ids ↔ DistinctIds (commaTokens s) ∧ ids = commaTokens s
  refused : ∀ e, readStockIds s = .error e ↔ ∃ before id rest,
    commaTokens s = before ++ id :: rest ∧ DistinctIds before ∧ Offends s before id e
  /-- The ids of a list are read, whatever the blanks around them, and no other list is read. -/
  listed : ∀ ids, readStockIds s = .ok ids ↔ IdList ids ∧
    ∃ pieces, List.Forall₂ Padded ids pieces ∧ [','].intercalate pieces = s.toList

/-- A text is read as its tokens, if they are distinct ids, and is refused for the first token that
is blank or repeated. -/
theorem stock_ids_read (s : String) : ReadsIds s where
  divided := ⟨_, pieces_splitOn s⟩
  tokens _ h := h.commaTokens_eq
  accepted _ := readStockIds_eq_ok_iff
  refused _ := readStockIds_eq_error_iff
  listed _ := readStockIds_eq_ok_iff_padded

example : readStockIds "2330,\t2317 ,0050" = .ok ["2330", "2317", "0050"] := by
  decide +kernel

end StockScreen
