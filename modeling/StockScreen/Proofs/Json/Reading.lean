import Mathlib.Data.List.Nodup
import StockScreen.Proofs.Json.Lexing
import StockScreen.Proofs.Lists

/-! # Values are read off their lexemes

A decoder that reads a value off the tokens of some lexemes stops where they
end. Arrays are read when their items are, and records when their fields are
written in order, each of them once.
-/

namespace StockScreen.Json

variable {α ρ : Type}

def Token.BeginsValue : Token → Prop
  | openBrace | openBracket | null | bool _ | number _ | string _ => True
  | _ => False

/-- The decoder reads `x` off the tokens of the lexemes, whatever follows them. -/
def Reads (decode : Decoder α) (ls : List Lexeme) (x : α) : Prop :=
  ∃ t ts, List.Forall₂ Lexes ls (t :: ts) ∧ t.BeginsValue ∧
    ∀ rest, decode (t :: ts ++ rest) = .ok (x, rest)

/-- The items with commas between them, and one before the first unless it is the `first` of all. -/
def listed : Bool → List (List Lexeme) → List Lexeme
  | _, [] => []
  | first, item :: items => (if first then [] else [[',']]) ++ item ++ listed false items

variable {decode : Decoder α} {ls : List Lexeme} {x : α} {t : Token} {ts : List Token} {c : Char}

theorem lexes_mark (h : mark? c = some t) : Lexes [c] t := by
  refine ⟨c, [], rfl, ?_, fun rest => ?_⟩
  · unfold mark? at h
    split at h <;> first | rfl | cases h
  · simp only [takeToken?, h, List.nil_append]

theorem intercalate_comma (items : List (List Lexeme)) :
    List.intercalate [[',']] items = listed true items := by
  have hmore : ∀ items : List (List Lexeme),
      items.flatMap ([[',']] ++ ·) = listed false items := by
    intro items
    induction items with
    | nil => rfl
    | cons item items ih => rw [List.flatMap_cons, ih]; rfl
  cases items with
  | nil => rfl
  | cons item items => rw [intercalate_cons, hmore]; rfl

theorem reads_text (s : String) : Reads text [quotedText s] s :=
  ⟨.string (some s), [], .cons (lexes_quotedText s) .nil, trivial, fun _ => rfl⟩

theorem Reads.field {put : α → ρ → ρ} (h : Reads decode ls x) (name : String) (required : Bool) :
    Reads (Field.of name required decode put).value ls (put x) := by
  obtain ⟨t, ts, hls, ht, hd⟩ := h
  refine ⟨t, ts, hls, ht, fun rest => ?_⟩
  change (decode (t :: ts ++ rest)).map _ = _
  rw [hd]
  rfl

/-! ## Arrays -/

theorem nextElement_item (first : Bool) (ht : t.BeginsValue) (ts rest : List Token) :
    nextElement first ((if first then [] else [.comma]) ++ (t :: ts ++ rest)) =
      .ok (.item (t :: ts ++ rest)) := by
  cases first with
  | false => rfl
  | true => cases t <;> first | rfl | cases ht

theorem forall₂_lead (first : Bool) :
    List.Forall₂ Lexes (if first then [] else [[',']]) (if first then [] else [.comma]) := by
  cases first with
  | false => exact .cons (lexes_mark rfl) .nil
  | true => exact .nil

/-- Inside brackets the items are read one after the other. The list of their tokens is long enough
to count them. -/
theorem exists_elements {f : α → List Lexeme} (xs : List α) (h : ∀ x ∈ xs, Reads decode (f x) x)
    (first : Bool) :
    ∃ ts, List.Forall₂ Lexes (listed first (xs.map f) ++ [[']']]) ts ∧
      ∀ n, ts.length ≤ n → ∀ rest, elements decode n first (ts ++ rest) = .ok (xs, rest) := by
  induction xs generalizing first with
  | nil =>
    refine ⟨[.closeBracket], .cons (lexes_mark rfl) .nil, fun n hn rest => ?_⟩
    obtain ⟨n, rfl⟩ := Nat.exists_eq_add_of_le hn
    rw [List.length_singleton, Nat.add_comm]
    cases first <;> rfl
  | cons x xs ih =>
    obtain ⟨hx, hxs⟩ := List.forall_mem_cons.mp h
    obtain ⟨t, us, hls, ht, hread⟩ := hx
    obtain ⟨ts, hrest, hread'⟩ := ih hxs false
    refine ⟨(if first then [] else [.comma]) ++ (t :: us ++ ts), ?_, fun n hn rest => ?_⟩
    · rw [List.map_cons, listed, List.append_assoc, List.append_assoc]
      exact List.rel_append (forall₂_lead first) (List.rel_append hls hrest)
    · simp only [List.length_append, List.length_cons] at hn
      obtain ⟨n, rfl⟩ := Nat.exists_eq_succ_of_ne_zero (show n ≠ 0 by omega)
      have hitem := nextElement_item first ht us (ts ++ rest)
      rw [List.append_assoc, List.append_assoc, elements, hitem]
      simp only [bind, Except.bind, hread (ts ++ rest), hread' n (by omega) rest]
      rfl

theorem Reads.listOf {f : α → List Lexeme} {xs : List α} (h : ∀ x ∈ xs, Reads decode (f x) x) :
    Reads (listOf decode) (array (xs.map f)) xs := by
  obtain ⟨ts, hls, hread⟩ := exists_elements xs h true
  refine ⟨.openBracket, ts, ?_, trivial, fun rest => ?_⟩
  · rw [array, bracketed, List.cons_append, intercalate_comma]
    exact .cons (lexes_mark rfl) hls
  · exact hread _ (by simp) rest

/-! ## Records -/

/-- A member of an object: its field, the lexemes of its value, and what they do to a record. -/
structure Entry (ρ : Type) where
  field : Field ρ
  value : List Lexeme
  put : ρ → ρ
  reads : Reads field.value value put

def Entry.member (e : Entry ρ) : String × List Lexeme := (e.field.name, e.value)

def memberLexemes (m : String × List Lexeme) : List Lexeme := quotedText m.1 :: [':'] :: m.2

variable {shape : Shape ρ}

theorem nextMember_item (first : Bool) (key : String) (rest : List Token) :
    nextMember first ((if first then [] else [.comma]) ++ .string (some key) :: rest) =
      .ok (.item (.string (some key) :: rest)) := by
  cases first <;> rfl

theorem Shape.find?_name (hnames : (shape.fields.map Field.name).Nodup) {f : Field ρ}
    (hf : f ∈ shape.fields) : shape.fields.find? (fun g => g.name == f.name) = some f :=
  find?_key hf fun _ hg hname => List.inj_on_of_nodup_map hnames hg hf hname

theorem Shape.missing?_eq_none {seen : List String} (h : ∀ f ∈ shape.fields, f.name ∈ seen) :
    shape.missing? seen = none := by
  rw [missing?, List.find?_eq_none]
  intro f hf
  simp [h f hf]

theorem Shape.members_closed {seen : List String} (h : shape.missing? seen = none) (n : Nat)
    (first : Bool) (r : ρ) (rest : List Token) :
    shape.members (n + 1) first seen r (.closeBrace :: rest) = .ok (r, rest) := by
  have hclosed : nextMember first (.closeBrace :: rest) = .ok (.closed rest) := by
    cases first <;> rfl
  rw [members, hclosed]
  simp only [bind, Except.bind, h]
  rfl

theorem Shape.members_field (hnames : (shape.fields.map Field.name).Nodup) {f : Field ρ}
    (hf : f ∈ shape.fields) {seen : List String} (hseen : f.name ∉ seen) {put : ρ → ρ}
    {us : List Token} (hvalue : f.value ts = .ok (put, us)) (n : Nat) (first : Bool) (r : ρ) :
    shape.members (n + 1) first seen r
        ((if first then [] else [.comma]) ++ .string (some f.name) :: .colon :: ts) =
      shape.members n false (f.name :: seen) (put r) us := by
  have hitem := nextMember_item first f.name (.colon :: ts)
  have hfind := Shape.find?_name hnames hf
  rw [members, hitem]
  simp only [bind, Except.bind, hfind, List.contains_eq_mem, hseen, decide_false, colon, hvalue]
  rfl

/-- Inside braces the members are read one after the other, when those before have been seen and
together they are the fields of the record. -/
theorem exists_members (done todo : List (Entry ρ))
    (hfields : shape.fields = (done ++ todo).map Entry.field)
    (hnames : (shape.fields.map Field.name).Nodup) (first : Bool) (r : ρ) :
    ∃ ts, List.Forall₂ Lexes
        (listed first (todo.map fun e => memberLexemes e.member) ++ [['\x7d']]) ts ∧
      ∀ n, ts.length ≤ n → ∀ rest,
        shape.members n first (done.map fun e => e.field.name).reverse r (ts ++ rest) =
          .ok (todo.foldl (fun r e => e.put r) r, rest) := by
  induction todo generalizing done first r with
  | nil =>
    have hmissing : shape.missing? (done.map fun e => e.field.name).reverse = none := by
      apply Shape.missing?_eq_none
      rw [hfields, List.append_nil]
      intro f hf
      obtain ⟨e, he, rfl⟩ := List.mem_map.mp hf
      exact List.mem_reverse.mpr (List.mem_map_of_mem he)
    refine ⟨[.closeBrace], .cons (lexes_mark rfl) .nil, fun n hn rest => ?_⟩
    obtain ⟨n, rfl⟩ := Nat.exists_eq_succ_of_ne_zero (Nat.one_le_iff_ne_zero.mp hn)
    exact Shape.members_closed hmissing n first r rest
  | cons e todo ih =>
    obtain ⟨t, us, hls, ht, hread⟩ := e.reads
    have hfields' : shape.fields = (done ++ [e] ++ todo).map Entry.field := by
      rw [hfields, List.append_assoc, List.singleton_append]
    obtain ⟨ts, hrest, hread'⟩ := ih (done ++ [e]) hfields' false (e.put r)
    have hfield : e.field ∈ shape.fields := by simp [hfields]
    have hseen : e.field.name ∉ (done.map fun e => e.field.name).reverse := by
      rw [hfields, List.map_map, List.map_append] at hnames
      intro hmem
      exact (List.nodup_append.mp hnames).2.2 _ (List.mem_reverse.mp hmem) _ List.mem_cons_self rfl
    refine ⟨(if first then [] else [.comma]) ++
      .string (some e.field.name) :: .colon :: (t :: us ++ ts), ?_, fun n hn rest => ?_⟩
    · rw [List.map_cons, listed, List.append_assoc, List.append_assoc]
      refine List.rel_append (forall₂_lead first) ?_
      exact .cons (lexes_quotedText _) (.cons (lexes_mark rfl) (List.rel_append hls hrest))
    · simp only [List.length_append, List.length_cons] at hn
      obtain ⟨n, rfl⟩ := Nat.exists_eq_succ_of_ne_zero (show n ≠ 0 by omega)
      have hmore := hread' n (by omega) rest
      rw [List.map_append, List.reverse_append] at hmore
      rw [List.append_assoc, List.cons_append, List.cons_append, List.append_assoc,
        Shape.members_field hnames hfield hseen (hread (ts ++ rest))]
      exact hmore

theorem reads_record (shape : Shape ρ) (entries : List (Entry ρ))
    (hfields : shape.fields = entries.map Entry.field)
    (hnames : (shape.fields.map Field.name).Nodup) :
    Reads shape.record (object (entries.map Entry.member))
      (entries.foldl (fun r e => e.put r) shape.blank) := by
  obtain ⟨ts, hls, hread⟩ := exists_members [] entries hfields hnames true shape.blank
  refine ⟨.openBrace, ts, ?_, trivial, fun rest => ?_⟩
  · rw [object, bracketed, List.cons_append, List.map_map, intercalate_comma]
    exact .cons (lexes_mark rfl) hls
  · exact hread _ (by simp) rest

end StockScreen.Json
