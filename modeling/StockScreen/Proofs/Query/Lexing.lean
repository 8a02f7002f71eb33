import StockScreen.Proofs.Query.Token

/-! # The tokens of a rendered statement

A statement with plain identifiers falls into the tokens that it is written
from, whatever its aliases and literals are: no text leaves its quotes, and no
token runs into the next one.
-/

namespace StockScreen.Query

/-- A text that is an identifier without quotes. -/
structure Plain (s : String) : Prop where
  nonempty : s.toList ≠ []
  chars : s.toList.all isWordChar
  head : s.toList.head?.any Char.isDigit = false
  word : Keyword.read? s = none

instance (s : String) : Decidable (Plain s) :=
  decidable_of_iff (s.toList ≠ [] ∧ s.toList.all isWordChar ∧
      s.toList.head?.any Char.isDigit = false ∧ Keyword.read? s = none)
    ⟨fun ⟨hne, hchars, hhead, hword⟩ => ⟨hne, hchars, hhead, hword⟩,
      fun h => ⟨h.nonempty, h.chars, h.head, h.word⟩⟩

def isSeparator (c : Char) : Bool := [' ', '\n', '.', ',', ')'].contains c

/-- Nothing here continues the token before it. -/
def Ends (rest : List Char) : Prop := ∀ c, rest.head? = some c → isSeparator c

/-- A piece of a text that falls into some tokens, when nothing continues its last one. -/
def Lexes (cs : List Char) (ts : List Token) : Prop :=
  ∀ rest more, Ends rest → lex rest = some more → lex (cs ++ rest) = some (ts ++ more)

/-- A piece of a text that falls into some tokens, the last of which nothing continues. -/
def Breaks (cs : List Char) (ts : List Token) : Prop :=
  ∀ rest more, lex rest = some more → lex (cs ++ rest) = some (ts ++ more)

section

variable {c q : Char} {cs ds rest : List Char} {ts us : List Token} {t : Token}
  {f : List Char → Token}

theorem ends_nil : Ends [] := nofun

theorem ends_cons (h : isSeparator c) : Ends (c :: rest) := by
  rintro _ ⟨⟩
  exact h

theorem Ends.not_wordChar (h : Ends rest) : ∀ c, rest.head? = some c → isWordChar c = false := by
  intro c hc
  have hsep := h c hc
  simp only [isSeparator, List.contains_iff_mem, List.mem_cons, List.not_mem_nil, or_false] at hsep
  rcases hsep with rfl | rfl | rfl | rfl | rfl <;> decide

theorem lex_cons (hc : isSpace c = false) (ht : token? c cs = some (t, rest)) :
    lex (c :: cs) = (lex rest).map (t :: ·) := by
  rw [lex, if_neg (by simp [hc]), ht]

theorem lex_space (hc : isSpace c) : lex (c :: cs) = lex cs := by rw [lex, if_pos hc]

/-! ## Pieces one after the other -/

theorem breaks_nil : Breaks [] [] := fun _ _ h => h

theorem Breaks.lexes (h : Breaks cs ts) : Lexes cs ts := fun rest _ _ => h rest _

theorem Breaks.append (h : Breaks cs ts) (h' : Breaks ds us) : Breaks (cs ++ ds) (ts ++ us) := by
  intro rest more hrest
  rw [List.append_assoc, List.append_assoc]
  exact h _ _ (h' rest more hrest)

theorem Breaks.then (h : Breaks cs ts) (h' : Lexes ds us) : Lexes (cs ++ ds) (ts ++ us) := by
  intro rest more hends hmore
  rw [List.append_assoc, List.append_assoc]
  exact h _ _ (h' rest more hends hmore)

theorem Lexes.append (h : Lexes cs ts) (h' : Lexes ds us)
    (hends : ∀ rest, Ends rest → Ends (ds ++ rest)) : Lexes (cs ++ ds) (ts ++ us) := by
  intro rest more hrest hmore
  rw [List.append_assoc, List.append_assoc]
  exact h _ _ (hends rest hrest) (h' rest more hrest hmore)

theorem ends_append (hsep : ds.head?.any isSeparator) : Ends (ds ++ rest) := by
  cases ds with
  | nil => cases hsep
  | cons d ds => exact ends_cons hsep

theorem Lexes.then (h : Lexes cs ts) (hsep : ds.head?.any isSeparator) (h' : Breaks ds us) :
    Breaks (cs ++ ds) (ts ++ us) := by
  intro rest more hrest
  rw [List.append_assoc, List.append_assoc]
  exact h _ _ (ends_append hsep) (h' rest more hrest)

/-! ## Single tokens -/

theorem breaks_space (hc : isSpace c) : Breaks [c] [] := by
  intro rest more h
  rw [List.singleton_append, lex_space hc]
  exact h

theorem breaks_symbol (hc : isSpace c = false) (ht : ∀ cs, token? c cs = some (t, cs)) :
    Breaks [c] [t] := by
  intro rest more h
  rw [List.singleton_append, lex_cons hc (ht rest), h]
  rfl

theorem breaks_dot : Breaks ['.'] [.dot] := breaks_symbol rfl fun _ => rfl

theorem breaks_comma : Breaks [','] [.comma] := breaks_symbol rfl fun _ => rfl

theorem breaks_opening : Breaks ['('] [.opening] := breaks_symbol rfl fun _ => rfl

theorem breaks_closing : Breaks [')'] [.closing] := breaks_symbol rfl fun _ => rfl

theorem takeWhile_append_of_head {p : Char → Bool} (hcs : ∀ c ∈ cs, p c)
    (hrest : ∀ c, rest.head? = some c → p c = false) :
    (cs ++ rest).takeWhile p = cs ∧ (cs ++ rest).dropWhile p = rest := by
  have hnone : rest.takeWhile p = [] ∧ rest.dropWhile p = rest := by
    cases rest with
    | nil => exact ⟨rfl, rfl⟩
    | cons c rest => simp [hrest c rfl]
  rw [List.takeWhile_append_of_pos hcs, List.dropWhile_append_of_pos hcs, hnone.1, hnone.2,
    List.append_nil]
  exact ⟨rfl, rfl⟩

theorem not_space_of_wordChar (h : isWordChar c) : isSpace c = false := by
  cases hs : isSpace c with
  | false => rfl
  | true =>
    simp only [isSpace, List.contains_iff_mem, List.mem_cons, List.not_mem_nil, or_false] at hs
    rcases hs with rfl | rfl | rfl | rfl | rfl <;> revert h <;> decide

theorem lexes_word (hne : cs ≠ []) (hcs : cs.all isWordChar) (ht : wordToken? cs = some t) :
    Lexes cs [t] := by
  intro rest more hends hmore
  cases cs with
  | nil => exact absurd rfl hne
  | cons c cs =>
    obtain ⟨hc, hcs⟩ := List.forall_mem_cons.mp (List.all_eq_true.mp hcs)
    obtain ⟨htake, hdrop⟩ := takeWhile_append_of_head hcs hends.not_wordChar
    have htoken : token? c (cs ++ rest) = some (t, rest) := by
      rw [token?, if_pos hc, htake, hdrop, ht]
      rfl
    rw [List.cons_append, lex_cons (not_space_of_wordChar hc) htoken, hmore]
    rfl

theorem unquote_cons (hc : c ≠ q) :
    unquote q (c :: cs) = (unquote q cs).map fun (s, rest) => (c :: s, rest) := by
  cases cs <;> simp [unquote, hc]

theorem unquote_double (s : List Char) (hrest : rest.head? ≠ some q) :
    unquote q (Text.double q s ++ q :: rest) = some (s, rest) := by
  induction s with
  | nil =>
    cases rest with
    | nil => simp [Text.double, unquote]
    | cons d rest =>
      have hd : ¬ d = q := fun h => hrest (congrArg some h)
      simp [Text.double, unquote, hd]
  | cons c s ih =>
    by_cases hc : c = q
    · subst hc
      simp [Text.double, unquote, ih]
    · rw [Text.double, if_neg hc, List.cons_append, unquote_cons hc, ih]
      rfl

theorem lexes_quoted (hq : isSpace q = false) (hsep : isSeparator q = false)
    (ht : ∀ cs, token? q cs = (unquote q cs).map fun (s, rest) => (f s, rest)) (s : List Char) :
    Lexes (Text.quoted q s) [f s] := by
  intro rest more hends hmore
  have hrest : rest.head? ≠ some q := fun h => by simp [hends q h] at hsep
  have htoken : token? q (Text.double q s ++ q :: rest) = some (f s, rest) := by
    rw [ht, unquote_double s hrest]
    rfl
  have happend : Text.quoted q s ++ rest = q :: (Text.double q s ++ q :: rest) := by
    simp [Text.quoted]
  rw [happend, lex_cons hq htoken, hmore]
  rfl

theorem lexes_literal (s : String) : Lexes (literal s) [.text s] := by
  have h := lexes_quoted (q := '\'') (f := fun s => .text (String.ofList s)) rfl rfl (fun _ => rfl)
    s.toList
  rwa [String.ofList_toList] at h

theorem lexes_identifier (s : String) : Lexes (identifier s) [.name s] := by
  have h := lexes_quoted (q := '"') (f := fun s => .name (String.ofList s)) rfl rfl (fun _ => rfl)
    s.toList
  rwa [String.ofList_toList] at h

theorem symbol?_strict (hrest : rest.head? ≠ some '=') :
    symbol? '>' rest = some (.op .greater, rest) ∧ symbol? '<' rest = some (.op .less, rest) := by
  cases rest with
  | nil => exact ⟨rfl, rfl⟩
  | cons c rest =>
    have hc : ¬ c = '=' := fun h => hrest (congrArg some h)
    simp [symbol?, hc]

theorem lexes_op (op : Comparison) : Lexes op.symbol.toList [.op op] := by
  intro rest more hends hmore
  have hrest : rest.head? ≠ some '=' := fun h => absurd (hends '=' h) (by decide)
  have hlex : ∀ c cs, isSpace c = false → token? c cs = some (.op op, rest) →
      lex (c :: cs) = some (.op op :: more) := by
    intro c cs hc ht
    rw [lex_cons hc ht, hmore]
    rfl
  cases op with
  | equal => exact hlex '=' _ rfl rfl
  | atLeast => exact hlex '>' ('=' :: rest) rfl rfl
  | atMost => exact hlex '<' ('=' :: rest) rfl rfl
  | greater => exact hlex '>' rest rfl (symbol?_strict hrest).1
  | less => exact hlex '<' rest rfl (symbol?_strict hrest).2

theorem lexes_keyword (k : Keyword) : Lexes k.spelling.toList [.keyword k] := by
  apply lexes_word <;> cases k <;> decide +kernel

theorem Plain.lexes {s : String} (h : Plain s) : Lexes s.toList [.word s] := by
  refine lexes_word h.nonempty h.chars ?_
  obtain ⟨c, cs, hs⟩ := List.exists_cons_of_ne_nil h.nonempty
  have hdigit : c.isDigit = false := by simpa [hs] using h.head
  rw [wordToken?, if_neg (by simp [hs, hdigit]), if_neg (by simp [hs, hdigit]),
    String.ofList_toList, h.word]

/-! ## Pieces of statements -/

theorem breaks_keyword (k : Keyword) (hc : isSpace c) :
    Breaks (c :: k.spelling.toList ++ [' ']) [.keyword k] :=
  (breaks_space hc).append ((lexes_keyword k).then rfl (breaks_space rfl))

theorem lexes_number_one : Lexes ['1'] [.number 1] := lexes_word (by simp) (by decide) rfl

theorem lexes_number_zero : Lexes ['0'] [.number 0] := lexes_word (by simp) (by decide) rfl

/-- A space keeps two pieces apart. -/
theorem Lexes.spaced (h : Lexes cs ts) (h' : Lexes ds us) : Lexes (cs ++ ' ' :: ds) (ts ++ us) :=
  h.append ((breaks_space (c := ' ') rfl).then h') fun _ _ => ends_cons rfl

theorem Lexes.compare (h : Lexes cs ts) (op : Comparison) (h' : Lexes ds us) :
    Lexes (cs ++ ' ' :: op.symbol.toList ++ ' ' :: ds) (ts ++ [.op op] ++ us) :=
  (h.spaced (lexes_op op)).spaced h'

end

/-! ## Statements and their parts -/

def Expr.tokens : Expr → List Token
  | .column table name => [.name table, .dot, .word name]
  | .literal text => [.text text]

def constantTokens (n : Nat) : List Token := [.number 1, .op .equal, .number n]

def listedTokens : List String → List Token
  | [] => []
  | [s] => [.text s]
  | s :: rest => .text s :: .comma :: listedTokens rest

mutual

def Predicate.tokens (nested : Bool) : Predicate → List Token
  | .all parts => allTokens nested parts
  | .compare l op r => l.tokens ++ [.op op] ++ r.tokens
  | .oneOf _ [] => constantTokens 0
  | .oneOf e values => e.tokens ++ [.keyword .IN, .opening] ++ listedTokens values ++ [.closing]
  | .never => constantTokens 0

def allTokens (nested : Bool) : List Predicate → List Token
  | [] => constantTokens 1
  | [p] => p.tokens nested
  | p :: q :: rest =>
    let parts := p.tokens true ++ moreTokens (q :: rest)
    if nested then .opening :: parts ++ [.closing] else parts

def moreTokens : List Predicate → List Token
  | [] => []
  | p :: rest => .keyword .AND :: p.tokens true ++ moreTokens rest

end

mutual

def Predicate.exprs : Predicate → List Expr
  | .all parts => allExprs parts
  | .compare l _ r => [l, r]
  | .oneOf _ [] => []
  | .oneOf e values => e :: values.map .literal
  | .never => []

def allExprs : List Predicate → List Expr
  | [] => []
  | p :: rest => p.exprs ++ allExprs rest

end

def Expr.Plain : Expr → Prop
  | .column _ name => Query.Plain name
  | .literal _ => True

instance : (e : Expr) → Decidable e.Plain
  | .column _ name => inferInstanceAs (Decidable (Query.Plain name))
  | .literal _ => inferInstanceAs (Decidable True)

def Predicate.Plain (p : Predicate) : Prop := ∀ e ∈ p.exprs, e.Plain

instance (p : Predicate) : Decidable p.Plain := inferInstanceAs (Decidable (∀ e ∈ p.exprs, e.Plain))

theorem Expr.plain_column {name : String} (h : Query.Plain name) (table : String) :
    (Expr.column table name).Plain := h

theorem Expr.plain_literal (text : String) : (Expr.literal text).Plain := trivial

namespace Predicate

theorem plain_all {parts : List Predicate} (h : ∀ p ∈ parts, p.Plain) :
    (Predicate.all parts).Plain := by
  intro e he
  change e ∈ allExprs parts at he
  induction parts with
  | nil => cases he
  | cons p parts ih =>
    obtain ⟨hp, hparts⟩ := List.forall_mem_cons.mp h
    rcases List.mem_append.mp he with he | he
    · exact hp e he
    · exact ih hparts he

theorem plain_compare {l r : Expr} (hl : l.Plain) (op : Comparison) (hr : r.Plain) :
    (Predicate.compare l op r).Plain :=
  List.forall_mem_cons.mpr ⟨hl, List.forall_mem_singleton.mpr hr⟩

theorem plain_oneOf {e : Expr} (h : e.Plain) (values : List String) :
    (Predicate.oneOf e values).Plain := by
  cases values with
  | nil => exact nofun
  | cons v vs =>
    refine List.forall_mem_cons.mpr ⟨h, fun e' he' => ?_⟩
    obtain ⟨v', -, rfl⟩ := List.mem_map.mp he'
    exact Expr.plain_literal v'

theorem plain_never : Predicate.never.Plain := nofun

end Predicate

def JoinKind.tokens : JoinKind → List Token
  | .inner => [.keyword .JOIN]
  | .left => [.keyword .LEFT, .keyword .JOIN]

def Join.tokens (j : Join) : List Token :=
  j.kind.tokens ++ [.word j.table, .name j.aliasName, .keyword .ON] ++ j.condition.tokens false

def Select.tokens (s : Select) : List Token :=
  .keyword .SELECT :: s.column.tokens ++
    [.keyword .AS, .word s.heading, .keyword .FROM, .word s.table, .name s.aliasName] ++
    s.joins.flatMap Join.tokens ++ .keyword .WHERE :: s.filter.tokens false

/-- Tables, columns and the heading are identifiers. -/
structure Select.Plain (s : Select) : Prop where
  column : s.column.Plain
  heading : Query.Plain s.heading
  table : Query.Plain s.table
  joins : ∀ j ∈ s.joins, Query.Plain j.table ∧ j.condition.Plain
  filter : s.filter.Plain

instance (s : Select) : Decidable s.Plain :=
  decidable_of_iff (s.column.Plain ∧ Query.Plain s.heading ∧ Query.Plain s.table ∧
      (∀ j ∈ s.joins, Query.Plain j.table ∧ j.condition.Plain) ∧ s.filter.Plain)
    ⟨fun ⟨hcolumn, hheading, htable, hjoins, hfilter⟩ =>
        ⟨hcolumn, hheading, htable, hjoins, hfilter⟩,
      fun h => ⟨h.column, h.heading, h.table, h.joins, h.filter⟩⟩

theorem Expr.lexes {e : Expr} (h : e.Plain) : Lexes e.render e.tokens := by
  cases e with
  | column table name =>
    exact (lexes_identifier table).append (breaks_dot.then (Query.Plain.lexes h))
      fun _ _ => ends_cons rfl
  | literal text => exact lexes_literal text

theorem lexes_listed (values : List String) :
    Lexes (listed (values.map literal)) (listedTokens values) := by
  induction values with
  | nil => exact breaks_nil.lexes
  | cons s values ih =>
    cases values with
    | nil => exact lexes_literal s
    | cons s' values =>
      have hcomma := breaks_comma.then ((breaks_space (c := ' ') rfl).then ih)
      exact (lexes_literal s).append hcomma fun _ _ => ends_cons rfl

theorem ends_renderMore (ps : List Predicate) {rest : List Char} (h : Ends rest) :
    Ends (renderMore ps ++ rest) := by
  cases ps with
  | nil => exact h
  | cons p ps => exact ends_cons rfl

theorem lexes_constant_one : Lexes "1 = 1".toList (constantTokens 1) :=
  lexes_number_one.compare .equal lexes_number_one

theorem lexes_constant_zero : Lexes "1 = 0".toList (constantTokens 0) :=
  lexes_number_one.compare .equal lexes_number_zero

mutual

theorem Predicate.lexes :
    ∀ (p : Predicate) (nested : Bool), p.Plain → Lexes (p.render nested) (p.tokens nested)
  | .all parts, nested, h => lexes_all parts nested h
  | .compare l op r, _, h =>
    (Expr.lexes (h l List.mem_cons_self)).compare op
      (Expr.lexes (h r (List.mem_cons_of_mem l List.mem_cons_self)))
  | .oneOf _ [], _, _ => lexes_constant_zero
  | .oneOf e (v :: vs), _, h => by
    have he := Expr.lexes (h e List.mem_cons_self)
    have hin : Breaks " IN (".toList [.keyword .IN, .opening] :=
      (breaks_keyword .IN rfl).append breaks_opening
    exact (((he.then (by decide) hin).then (lexes_listed (v :: vs))).then rfl breaks_closing).lexes
  | .never, _, _ => lexes_constant_zero

theorem lexes_all : ∀ (ps : List Predicate) (nested : Bool), (∀ e ∈ allExprs ps, e.Plain) →
    Lexes (renderAll nested ps) (allTokens nested ps)
  | [], _, _ => lexes_constant_one
  | [p], nested, h => p.lexes nested fun e he => h e (List.mem_append_left _ he)
  | p :: q :: rest, nested, h => by
    have hp := p.lexes true fun e he => h e (List.mem_append_left _ he)
    have hmore := lexes_more (q :: rest) fun e he => h e (List.mem_append_right _ he)
    have hparts := hp.append hmore fun _ => ends_renderMore (q :: rest)
    cases nested with
    | false => exact hparts
    | true => exact ((breaks_opening.then hparts).then rfl breaks_closing).lexes

theorem lexes_more : ∀ ps : List Predicate, (∀ e ∈ allExprs ps, e.Plain) →
    Lexes (renderMore ps) (moreTokens ps)
  | [], _ => breaks_nil.lexes
  | p :: rest, h => by
    have hp := p.lexes true fun e he => h e (List.mem_append_left _ he)
    have hrest := lexes_more rest fun e he => h e (List.mem_append_right _ he)
    exact ((breaks_keyword .AND rfl).then hp).append hrest fun _ => ends_renderMore rest

end

theorem JoinKind.lexes (kind : JoinKind) : Lexes kind.keyword.toList kind.tokens := by
  cases kind with
  | inner => exact lexes_keyword .JOIN
  | left =>
    have hleft : Breaks "LEFT ".toList [.keyword .LEFT] :=
      (lexes_keyword .LEFT).then rfl (breaks_space rfl)
    exact hleft.then (lexes_keyword .JOIN)

theorem Join.lexes {j : Join} (htable : Query.Plain j.table) (hcondition : j.condition.Plain) :
    Lexes j.render j.tokens := by
  have hon : Breaks " ON ".toList [.keyword .ON] := breaks_keyword .ON rfl
  have hkind := (breaks_space (c := '\n') rfl).then j.kind.lexes
  have hsource := (hkind.spaced htable.lexes).spaced (lexes_identifier j.aliasName)
  have hall : Lexes j.render _ := (hsource.then (by decide) hon).then
    (j.condition.lexes false hcondition)
  simpa only [Join.tokens, List.append_assoc, List.cons_append, List.nil_append] using hall

theorem ends_joins (joins : List Join) {rest : List Char} (h : Ends rest) :
    Ends (joins.flatMap Join.render ++ rest) := by
  cases joins with
  | nil => exact h
  | cons j joins => exact ends_cons rfl

theorem lexes_joins {joins : List Join}
    (h : ∀ j ∈ joins, Query.Plain j.table ∧ j.condition.Plain) :
    Lexes (joins.flatMap Join.render) (joins.flatMap Join.tokens) := by
  induction joins with
  | nil => exact breaks_nil.lexes
  | cons j joins ih =>
    obtain ⟨⟨htable, hcondition⟩, hjoins⟩ := List.forall_mem_cons.mp h
    exact (Join.lexes htable hcondition).append (ih hjoins) fun _ => ends_joins joins

theorem Select.lexes {s : Select} (h : s.Plain) : Lexes s.render s.tokens := by
  have hselect : Breaks "SELECT ".toList [.keyword .SELECT] :=
    (lexes_keyword .SELECT).then rfl (breaks_space rfl)
  have has : Breaks " AS ".toList [.keyword .AS] := breaks_keyword .AS rfl
  have hfrom : Breaks "\nFROM ".toList [.keyword .FROM] := breaks_keyword .FROM rfl
  have hwhere : Breaks "\nWHERE ".toList [.keyword .WHERE] := breaks_keyword .WHERE rfl
  have hheading := ((hselect.then (Expr.lexes h.column)).then (by decide) has).then h.heading.lexes
  have htable := (hheading.then (by decide) hfrom).then h.table.lexes
  have hsource := htable.spaced (lexes_identifier s.aliasName)
  have hjoins := hsource.append (lexes_joins h.joins) fun _ => ends_joins s.joins
  have hall : Lexes s.render _ := (hjoins.then (by decide) hwhere).then
    (s.filter.lexes false h.filter)
  simpa only [Select.tokens, List.append_assoc, List.cons_append, List.nil_append] using hall

theorem Lexes.lex_eq {cs : List Char} {ts : List Token} (h : Lexes cs ts) : lex cs = some ts := by
  have hlex := h [] [] ends_nil (by rw [lex])
  rwa [List.append_nil, List.append_nil] at hlex

end StockScreen.Query
