import Mathlib.Data.List.Nodup
import StockScreen.Config.Ini
import StockScreen.Proofs.Lists
import StockScreen.Proofs.Text.Blank

/-! # Sections that are read back

A section is written with a line for its name and one for each entry. It is
read as these entries, the last one first, so that a key has the value that was
written with it wherever its line stands.
-/

namespace StockScreen

namespace Text

theorem toLower_of_lt {c : Char} (h : 0x5A < c.toNat) : c.toLower = c := by
  unfold Char.toLower
  refine dif_neg fun hrange => ?_
  have hle : c.toNat ≤ 0x5A := UInt32.le_iff_toNat_le.mp hrange.2
  omega

theorem smallLettersAfter_eq_self {cs : List Char} (before : List Char)
    (h : ∀ c ∈ cs, c.toNat < 0x80 ∧ c.toLower = c) : smallLettersAfter before cs = cs := by
  induction cs generalizing before with
  | nil => rfl
  | cons c cs ih =>
    obtain ⟨⟨hascii, hlower⟩, hcs⟩ := List.forall_mem_cons.mp h
    have hletter : smallLetter c = c := by rw [smallLetter, if_pos hascii, hlower]
    simp only [smallLettersAfter, ih _ hcs, hletter]
    rw [if_neg (by omega), if_neg (by omega)]
    rfl

end Text

namespace Config

/-- A character of ASCII that can be seen and begins no comment. -/
def isPlain (c : Char) : Bool := 0x20 < c.toNat && c.toNat < 0x7F && !startsComment c

/-- A small letter of ASCII or a line between words. -/
def isNameChar (c : Char) : Bool := (0x61 ≤ c.toNat && c.toNat ≤ 0x7A) || c == '_'

structure IsWord (cs : List Char) : Prop where
  ne_nil : cs ≠ []
  plain : ∀ c ∈ cs, isPlain c

structure IsName (cs : List Char) : Prop where
  ne_nil : cs ≠ []
  letters : ∀ c ∈ cs, isNameChar c

variable {c : Char} {cs key value name : List Char}

theorem isPlain_iff :
    isPlain c ↔ 0x20 < c.toNat ∧ c.toNat < 0x7F ∧ startsComment c = false := by
  simp [isPlain, and_assoc]

theorem not_startsComment (h : c.toNat ≠ 0x3B) (h' : c.toNat ≠ 0x23) : startsComment c = false := by
  have hsemicolon : c ≠ ';' := fun hc => h (hc ▸ rfl)
  have hhash : c ≠ '#' := fun hc => h' (hc ▸ rfl)
  simp [startsComment, hsemicolon, hhash]

theorem isPlain_of_isDigit (h : c.isDigit) : isPlain c := by
  have hrange : 0x30 ≤ c.toNat ∧ c.toNat ≤ 0x39 := by
    simpa [Char.isDigit, UInt32.le_iff_toNat_le, ← Char.toNat_val] using h
  exact isPlain_iff.mpr ⟨by omega, by omega, not_startsComment (by omega) (by omega)⟩

theorem IsName.toNat (h : IsName cs) (hc : c ∈ cs) :
    c.toNat = 0x5F ∨ 0x61 ≤ c.toNat ∧ c.toNat ≤ 0x7A := by
  rcases Bool.or_eq_true_iff.mp (h.letters c hc) with hletter | hbetween
  · exact .inr (by simpa using hletter)
  · exact .inl (eq_of_beq hbetween ▸ rfl)

theorem IsName.isWord (h : IsName cs) : IsWord cs where
  ne_nil := h.ne_nil
  plain c hc := by
    have hrange := h.toNat hc
    exact isPlain_iff.mpr ⟨by omega, by omega, not_startsComment (by omega) (by omega)⟩

theorem IsName.not_isDelimiter (h : IsName cs) (hc : c ∈ cs) : isDelimiter c = false := by
  have hrange := h.toNat hc
  have hequals : c ≠ '=' := fun hc => absurd hrange (hc ▸ by decide)
  have hcolon : c ≠ ':' := fun hc => absurd hrange (hc ▸ by decide)
  simp [isDelimiter, hequals, hcolon]

theorem IsName.lowerCase_eq (h : IsName cs) :
    Text.lowerCase (String.ofList cs) = String.ofList cs := by
  rw [Text.lowerCase, String.toList_ofList, Text.smallLettersAfter_eq_self]
  intro c hc
  have hrange := h.toNat hc
  exact ⟨by omega, Text.toLower_of_lt (by omega)⟩

theorem IsWord.isBlank (h : IsWord cs) (hc : c ∈ cs) : Text.isBlank c = false := by
  obtain ⟨hlow, hhigh, -⟩ := isPlain_iff.mp (h.plain c hc)
  exact Text.isBlank_of_ascii hlow hhigh

theorem IsWord.startsComment (h : IsWord cs) : ∀ c ∈ cs, startsComment c = false :=
  fun c hc => (isPlain_iff.mp (h.plain c hc)).2.2

theorem IsWord.trimmed (h : IsWord cs) : Text.Trimmed cs where
  head _ hc := h.isBlank (List.mem_of_mem_head? hc)
  last _ hc := h.isBlank (List.mem_of_getLast? hc)

/-! ## Lines -/

theorem IsName.foldName_eq (h : IsName name) (hblank : Text.trimChars cs = name) :
    foldName cs = String.ofList name := by
  rw [foldName, hblank, h.lowerCase_eq]

theorem read_of_trimmed (htrim : Text.Trimmed cs) (h : ∀ c ∈ cs, startsComment c = false) :
    Line.read cs = Line.ofContent cs := by
  have hcontent : cs.takeWhile (fun c => !startsComment c) = cs :=
    List.takeWhile_eq_self_iff.mpr fun c hc => by simp [h c hc]
  rw [Line.read, htrim.trimChars_eq, hcontent, htrim.trimChars_eq]

def entryLine (key value : List Char) : List Char := key ++ [' ', '=', ' '] ++ value

theorem entryLine_startsComment (hkey : IsWord key) (hvalue : IsWord value) :
    ∀ c ∈ entryLine key value, startsComment c = false := by
  have hbetween : ∀ c ∈ [' ', '=', ' '], startsComment c = false := by simp [startsComment]
  rw [entryLine, List.forall_mem_append, List.forall_mem_append]
  exact ⟨⟨hkey.startsComment, hbetween⟩, hvalue.startsComment⟩

theorem entryLine_eq (key value : List Char) :
    entryLine key value = key ++ [' '] ++ '=' :: ' ' :: value := by
  simp [entryLine]

/-- No delimiter stands before that of the line, although the value may have colons of its own. -/
theorem IsName.before_delimiter (h : IsName key) : ∀ c ∈ key ++ [' '], !isDelimiter c := by
  rw [List.forall_mem_append, List.forall_mem_singleton]
  exact ⟨fun c hc => by simp [h.not_isDelimiter hc], rfl⟩

theorem takeWhile_entryLine (hkey : IsName key) :
    (entryLine key value).takeWhile (fun c => !isDelimiter c) = key ++ [' '] := by
  rw [entryLine_eq, List.takeWhile_append_of_pos hkey.before_delimiter]
  exact List.append_nil _

theorem dropWhile_entryLine (hkey : IsName key) :
    (entryLine key value).dropWhile (fun c => !isDelimiter c) = '=' :: ' ' :: value := by
  rw [entryLine_eq, List.dropWhile_append_of_pos hkey.before_delimiter]
  rfl

theorem entryLine_ne_bracket (hkey : IsName key) : entryLine key value ≠ '[' :: cs := by
  obtain ⟨first, rest, rfl⟩ := List.exists_cons_of_ne_nil hkey.ne_nil
  intro h
  obtain rfl : first = '[' := (List.cons.inj h).1
  exact absurd (hkey.toNat List.mem_cons_self) (by decide)

theorem read_entryLine (hkey : IsName key) (hvalue : IsWord value) :
    Line.read (entryLine key value) =
      .entry (String.ofList key) (some (String.ofList value)) := by
  have htrim : Text.Trimmed (entryLine key value) :=
    hkey.isWord.trimmed.append hvalue.trimmed hkey.ne_nil hvalue.ne_nil _
  have hblank : ∀ c ∈ [' '], Text.isBlank c := List.forall_mem_singleton.mpr rfl
  have hname : foldName (key ++ [' ']) = String.ofList key :=
    hkey.foldName_eq (hkey.isWord.trimmed.trimChars_padded [] [' '] nofun hblank)
  have htext : Text.trimChars (' ' :: value) = value := by
    simpa using hvalue.trimmed.trimChars_padded [' '] [] hblank nofun
  have hne : String.ofList key ≠ "" := by simpa using hkey.ne_nil
  rw [read_of_trimmed htrim (entryLine_startsComment hkey.isWord hvalue)]
  unfold Line.ofContent
  split
  · next hnil => simp [entryLine] at hnil
  · next hbracket => exact absurd hbracket (entryLine_ne_bracket hkey)
  · simp only [takeWhile_entryLine hkey, dropWhile_entryLine hkey, hname, htext, if_neg hne]

def headerLine (name : List Char) : List Char := ['['] ++ name ++ [']']

theorem headerLine_startsComment (hname : IsWord name) :
    ∀ c ∈ headerLine name, startsComment c = false := by
  rw [headerLine, List.forall_mem_append, List.forall_mem_append, List.forall_mem_singleton,
    List.forall_mem_singleton]
  exact ⟨⟨rfl, hname.startsComment⟩, rfl⟩

theorem beforeBracket?_append (cs : List Char) : beforeBracket? (cs ++ [']']) = some cs := by
  rw [beforeBracket?, List.reverse_append]
  exact congrArg some cs.reverse_reverse

theorem read_headerLine (hname : IsName name) :
    Line.read (headerLine name) = .opening (String.ofList name) := by
  have htrim : Text.Trimmed (headerLine name) :=
    (Text.trimmed_singleton rfl).append (Text.trimmed_singleton rfl) (by simp) (by simp) _
  rw [read_of_trimmed htrim (headerLine_startsComment hname.isWord)]
  have hbracket := beforeBracket?_append name
  simp only [headerLine, List.cons_append, List.nil_append, Line.ofContent, hbracket,
    hname.foldName_eq hname.isWord.trimmed.trimChars_eq]

/-! ## Sections -/

/-- A key and a value that are read as they are written. -/
structure Writable (e : String × String) : Prop where
  key : IsName e.1.toList
  value : IsWord e.2.toList

def sectionLines (name : String) (entries : List (String × String)) : List (List Char) :=
  headerLine name.toList :: entries.map fun e => entryLine e.1.toList e.2.toList

def sectionText (name : String) (entries : List (String × String)) : String :=
  String.ofList ((sectionLines name entries).flatMap (· ++ ['\n']))

def sectionEntries (name : String) (entries : List (String × String)) : Ini :=
  (entries.map fun e => ⟨name, e.1, some e.2⟩).reverse

variable {name key value : String} {entries : List (String × String)}

theorem splitOn_flatMap {lines : List (List Char)} (h : ∀ cs ∈ lines, '\n' ∉ cs) :
    (lines.flatMap (· ++ ['\n'])).splitOn '\n' = lines ++ [[]] := by
  induction lines with
  | nil => rfl
  | cons cs lines ih =>
    obtain ⟨hcs, hlines⟩ := List.forall_mem_cons.mp h
    rw [List.flatMap_cons, List.append_assoc, List.singleton_append,
      List.splitOn_append_cons_self_of_not_mem hcs, ih hlines, List.cons_append]

theorem IsWord.newline_notMem {cs : List Char} (h : IsWord cs) : '\n' ∉ cs :=
  fun hmem => absurd (h.plain _ hmem) (by decide)

theorem newline_notMem_sectionLines (hname : IsName name.toList) (h : ∀ e ∈ entries, Writable e) :
    ∀ cs ∈ sectionLines name entries, '\n' ∉ cs := by
  rw [sectionLines, List.forall_mem_cons, List.forall_mem_map]
  refine ⟨?_, fun e he => ?_⟩
  · simpa [headerLine] using hname.isWord.newline_notMem
  · simpa [entryLine] using ⟨(h e he).key.isWord.newline_notMem, (h e he).value.newline_notMem⟩

theorem readLines_entryLines (h : ∀ e ∈ entries, Writable e) (n : Nat) (ini : Ini) :
    readLines n name ini ((entries.map fun e => entryLine e.1.toList e.2.toList) ++ [[]]) =
      .ok (sectionEntries name entries ++ ini) := by
  induction entries generalizing n ini with
  | nil => rfl
  | cons e entries ih =>
    obtain ⟨he, hentries⟩ := List.forall_mem_cons.mp h
    rw [List.map_cons, List.cons_append, readLines, read_entryLine he.key he.value]
    simp only [String.ofList_toList, ih hentries]
    simp [sectionEntries]

theorem readIni_sectionText (hname : IsName name.toList) (h : ∀ e ∈ entries, Writable e) :
    readIni (sectionText name entries) = .ok (sectionEntries name entries) := by
  rw [readIni, sectionText, String.toList_ofList,
    splitOn_flatMap (newline_notMem_sectionLines hname h), sectionLines, List.cons_append,
    readLines, read_headerLine hname]
  simp only [String.ofList_toList, readLines_entryLines h, List.append_nil]

theorem lowerCase_of_isName {s : String} (h : IsName s.toList) : Text.lowerCase s = s := by
  simpa using h.lowerCase_eq

theorem get?_sectionEntries (hname : IsName name.toList) (h : ∀ e ∈ entries, Writable e)
    (hkeys : (entries.map Prod.fst).Nodup) (hmem : (key, value) ∈ entries) :
    Ini.get? (sectionEntries name entries) name key = some value := by
  have hfind : (sectionEntries name entries).find?
      (fun e => e.sectionName == name && e.key == key) = some ⟨name, key, some value⟩ := by
    refine find?_of_unique ?_ (by simp) ?_
    · exact List.mem_reverse.mpr (List.mem_map.mpr ⟨_, hmem, rfl⟩)
    · intro entry hentry hp
      obtain ⟨e, he, rfl⟩ := List.mem_map.mp (List.mem_reverse.mp hentry)
      have hkey : e.1 = key := by simpa using hp
      rw [List.inj_on_of_nodup_map hkeys he hmem hkey]
  rw [Ini.get?, lowerCase_of_isName hname, lowerCase_of_isName (h _ hmem).key, hfind]
  rfl

end Config

end StockScreen
