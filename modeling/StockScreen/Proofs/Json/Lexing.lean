import Mathlib.Data.List.Forall2
import StockScreen.Json.Rule

/-! # Lexemes are read as tokens

The marks of JSON and quoted texts are read as one token each, whatever follows
them. A text that is made of lexemes, with any blanks between them, is the list
of their tokens.
-/

namespace StockScreen.Json

/-- The lexemes in order, with blanks before each of them and after the last. -/
inductive Spaced : List Lexeme → List Char → Prop
  | blanks {bs : List Char} (hbs : ∀ c ∈ bs, isBlank c) : Spaced [] bs
  | cons {bs cs : List Char} {l : Lexeme} {ls : List Lexeme} (hbs : ∀ c ∈ bs, isBlank c)
      (hcs : Spaced ls cs) : Spaced (l :: ls) (bs ++ l ++ cs)

/-- The lexeme is read as a token, whatever follows it. -/
def Lexes (l : Lexeme) (t : Token) : Prop :=
  ∃ c cs, l = c :: cs ∧ isBlank c = false ∧ ∀ rest, takeToken? c (cs ++ rest) = some (t, rest)

variable {c : Char} {cs bs rest : List Char} {l : Lexeme} {ls : List Lexeme} {t : Token}
  {ts : List Token}

theorem spaced_flatten (ls : List Lexeme) : Spaced ls ls.flatten := by
  induction ls with
  | nil => exact .blanks nofun
  | cons l ls ih =>
    have hnone : ∀ c ∈ ([] : List Char), isBlank c := nofun
    exact .cons hnone ih

theorem spaced_flatMap (hbs : ∀ c ∈ bs, isBlank c) (ls : List Lexeme) :
    Spaced ls (ls.flatMap (bs ++ ·) ++ bs) := by
  induction ls with
  | nil => exact .blanks hbs
  | cons l ls ih =>
    rw [List.flatMap_cons, List.append_assoc]
    exact .cons hbs ih

/-! ## Quoted texts -/

theorem hexValue?_digitChar {n : Nat} (h : n < 16) : hexValue? (Nat.digitChar n) = some n := by
  revert n
  decide

theorem ofHex?_control (h : c.toNat < 0x20) :
    CodeUnit.ofHex? '0' '0' (Nat.digitChar (c.toNat / 16)) (Nat.digitChar (c.toNat % 16)) =
      some (.char c) := by
  have hhigh := hexValue?_digitChar (n := c.toNat / 16) (by omega)
  have hlow := hexValue?_digitChar (n := c.toNat % 16) (by omega)
  have hzero : hexValue? '0' = some 0 := rfl
  have hvalue : ((0 * 16 + 0) * 16 + c.toNat / 16) * 16 + c.toNat % 16 = c.toNat := by omega
  simp only [CodeUnit.ofHex?, hzero, hhigh, hlow, Option.bind_eq_bind, Option.bind_some, hvalue]
  rw [if_neg (by omega), Char.ofNat_toNat]
  rfl

theorem takeUnits?_plain (hquote : c ≠ '"') (hslash : c ≠ '\\') (hc : ¬ c.toNat < 0x20) :
    takeUnits? (c :: cs) = (takeUnits? cs).map fun (us, rest) => (.char c :: us, rest) := by
  rw [takeUnits?]
  · rw [if_neg (not_or.mpr ⟨hslash, hc⟩)]
  · exact hquote
  · exact fun _ _ _ _ _ h _ => hslash h
  · exact fun _ _ h _ => hslash h

theorem takeUnits?_escape (c : Char) (cs : List Char) : takeUnits? (escape c ++ cs) =
    (takeUnits? cs).map fun (us, rest) => (.char c :: us, rest) := by
  unfold escape
  split
  · rfl
  · rfl
  · rfl
  · rfl
  · rfl
  · rfl
  · rfl
  · next hquote hslash _ _ _ _ _ =>
    split
    · next hc => simp only [List.cons_append, List.nil_append, takeUnits?, ofHex?_control hc]
    · next hc => exact takeUnits?_plain hquote hslash hc

theorem takeUnits?_escaped (s rest : List Char) :
    takeUnits? (s.flatMap escape ++ '"' :: rest) = some (s.map .char, rest) := by
  induction s with
  | nil => rfl
  | cons c s ih =>
    rw [List.flatMap_cons, List.append_assoc, takeUnits?_escape, ih]
    rfl

theorem joinUnits?_chars (s : List Char) : joinUnits? (s.map .char) = some s := by
  induction s with
  | nil => rfl
  | cons c s ih => rw [List.map_cons, joinUnits?, ih]; rfl

theorem lexes_quotedText (s : String) : Lexes (quotedText s) (.string (some s)) := by
  refine ⟨'"', s.toList.flatMap escape ++ ['"'], rfl, rfl, fun rest => ?_⟩
  have hunits := takeUnits?_escaped s.toList rest
  have hquote : mark? '"' = none := rfl
  rw [List.append_assoc, List.singleton_append]
  simp only [takeToken?, hquote, if_true, hunits, Option.map_some, joinUnits?_chars,
    String.ofList_toList]

/-! ## Texts of lexemes -/

theorem tokens_blank (h : isBlank c) : tokens (c :: cs) = tokens cs := by
  rw [tokens, if_pos h]

theorem tokens_blanks (h : ∀ c ∈ bs, isBlank c) (cs : List Char) :
    tokens (bs ++ cs) = tokens cs := by
  induction bs with
  | nil => rfl
  | cons c bs ih =>
    obtain ⟨hc, hbs⟩ := List.forall_mem_cons.mp h
    rw [List.cons_append, tokens_blank hc, ih hbs]

theorem tokens_lexeme (h : Lexes l t) : tokens (l ++ cs) = t :: tokens cs := by
  obtain ⟨c, cs', rfl, hblank, htake⟩ := h
  rw [List.cons_append, tokens, if_neg (by simp [hblank])]
  split
  · next t' rest' h' =>
    cases h'.symm.trans (htake cs)
    rfl
  · next h' => cases h'.symm.trans (htake cs)

theorem Spaced.tokens_eq (h : Spaced ls cs) (hls : List.Forall₂ Lexes ls ts) : tokens cs = ts := by
  induction h generalizing ts with
  | blanks hbs =>
    cases hls
    have hnil := tokens_blanks hbs []
    rwa [List.append_nil, tokens] at hnil
  | cons hbs _ ih =>
    cases hls with
    | cons hl hls => rw [List.append_assoc, tokens_blanks hbs, tokens_lexeme hl, ih hls]

end StockScreen.Json
