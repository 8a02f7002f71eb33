/-! # Facts about lists -/

namespace StockScreen

variable {α β : Type}

theorem flatMap_filter_of_nil {p : α → Bool} {f : α → List β} (xs : List α)
    (h : ∀ x ∈ xs, ¬ p x → f x = []) : (xs.filter p).flatMap f = xs.flatMap f := by
  induction xs with
  | nil => rfl
  | cons x xs ih =>
    obtain ⟨hx, hxs⟩ := List.forall_mem_cons.mp h
    cases hp : p x with
    | true => rw [List.filter_cons_of_pos hp, List.flatMap_cons, List.flatMap_cons, ih hxs]
    | false =>
      rw [List.filter_cons_of_neg (by simp [hp]), List.flatMap_cons, hx (by simp [hp]), ih hxs]
      rfl

theorem flatMap_ite_singleton (p : α → Bool) (f : α → β) (xs : List α) :
    (xs.flatMap fun x => if p x then [f x] else []) = (xs.filter p).map f := by
  induction xs with
  | nil => rfl
  | cons x xs ih =>
    cases hp : p x with
    | true => simp [hp, ih]
    | false => simp [hp, ih]

theorem intercalate_cons (sep cs : List α) (more : List (List α)) :
    sep.intercalate (cs :: more) = cs ++ more.flatMap (sep ++ ·) := by
  induction more generalizing cs with
  | nil => simp [List.intercalate]
  | cons ds more ih =>
    have hnext := ih ds
    simp only [List.intercalate, List.intersperse_cons_cons, List.flatten_cons,
      List.flatMap_cons] at hnext ⊢
    rw [hnext, List.append_assoc]

theorem lookup_map_append (f : String → α) (rest : List (String × α)) {c : String}
    {keys : List String} (hc : c ∈ keys) :
    ((keys.map fun k => (k, f k)) ++ rest).lookup c = some (f c) := by
  induction keys with
  | nil => cases hc
  | cons k keys ih =>
    by_cases hk : c = k
    · simp [hk]
    · have hc' : c ∈ keys := (List.mem_cons.mp hc).resolve_left hk
      simpa [List.lookup_cons, beq_false_of_ne hk] using ih hc'

theorem bind_eq_ok_iff {ε : Type} {x : Except ε α} {f : α → Except ε β} {y : β} :
    x >>= f = .ok y ↔ ∃ v, x = .ok v ∧ f v = .ok y := by
  cases x with
  | error e => simp [Bind.bind, Except.bind]
  | ok v => simp [Bind.bind, Except.bind]

theorem mapM_eq_ok {ε : Type} {f : α → Except ε β} {g : α → β} {xs : List α}
    (h : ∀ x ∈ xs, f x = .ok (g x)) : xs.mapM f = .ok (xs.map g) := by
  induction xs with
  | nil => rfl
  | cons x xs ih =>
    obtain ⟨hx, hxs⟩ := List.forall_mem_cons.mp h
    rw [List.mapM_cons, hx, ih hxs]
    rfl

theorem mapM_cons_eq_ok_iff {ε : Type} {f : α → Except ε β} {x : α} {xs : List α} {ys : List β} :
    (x :: xs).mapM f = .ok ys ↔
      ∃ y rest, f x = .ok y ∧ xs.mapM f = .ok rest ∧ ys = y :: rest := by
  rw [List.mapM_cons]
  constructor
  · intro h
    obtain ⟨y, hx, h⟩ := bind_eq_ok_iff.mp h
    obtain ⟨rest, hxs, ⟨⟩⟩ := bind_eq_ok_iff.mp h
    exact ⟨y, rest, hx, hxs, rfl⟩
  · rintro ⟨y, rest, hx, hxs, rfl⟩
    rw [hx, hxs]
    rfl

theorem mapM_eq_ok_iff {ε : Type} {f : α → Except ε β} {xs : List α} {ys : List β} :
    xs.mapM f = .ok ys ↔ xs.map f = ys.map .ok := by
  induction xs generalizing ys with
  | nil => simp [pure, Except.pure, eq_comm]
  | cons x xs ih =>
    rw [mapM_cons_eq_ok_iff]
    constructor
    · rintro ⟨y, rest, hx, hxs, rfl⟩
      rw [List.map_cons, List.map_cons, hx, ih.mp hxs]
    · intro h
      cases ys with
      | nil => cases h
      | cons y rest =>
        obtain ⟨hx, hxs⟩ := List.cons_eq_cons.mp h
        exact ⟨y, rest, hx, ih.mpr hxs, rfl⟩

theorem mapM_eq_error {ε : Type} {f : α → Except ε β} {before after : List α} {x : α} {e : ε}
    (hbefore : ∀ y ∈ before, ∃ v, f y = .ok v) (hx : f x = .error e) :
    (before ++ x :: after).mapM f = .error e := by
  induction before with
  | nil => rw [List.nil_append, List.mapM_cons, hx]; rfl
  | cons y before ih =>
    obtain ⟨⟨v, hv⟩, hrest⟩ := List.forall_mem_cons.mp hbefore
    rw [List.cons_append, List.mapM_cons, hv, ih hrest]
    rfl

theorem map_ok_or_error {ε : Type} (f : α → Except ε β) (xs : List α) :
    (∃ ys : List β, xs.map f = ys.map .ok) ∨
      ∃ before x after e, xs = before ++ x :: after ∧ (∀ y ∈ before, ∃ v, f y = .ok v) ∧
        f x = .error e := by
  induction xs with
  | nil => exact .inl ⟨[], rfl⟩
  | cons x xs ih =>
    rcases hx : f x with e | v
    · exact .inr ⟨[], x, xs, e, rfl, nofun, hx⟩
    rcases ih with ⟨ys, hys⟩ | ⟨before, y, after, e, rfl, hbefore, hy⟩
    · exact .inl ⟨v :: ys, by rw [List.map_cons, List.map_cons, hx, hys]⟩
    · exact .inr ⟨x :: before, y, after, e, rfl, List.forall_mem_cons.mpr ⟨⟨v, hx⟩, hbefore⟩, hy⟩

theorem mapM_eq_error_iff {ε : Type} {f : α → Except ε β} {xs : List α} {e : ε} :
    xs.mapM f = .error e ↔
      ∃ before x after, xs = before ++ x :: after ∧ (∀ y ∈ before, ∃ v, f y = .ok v) ∧
        f x = .error e := by
  constructor
  · intro h
    rcases map_ok_or_error f xs with ⟨ys, hys⟩ | ⟨before, x, after, e', rfl, hbefore, hx⟩
    · cases h.symm.trans (mapM_eq_ok_iff.mpr hys)
    · cases h.symm.trans (mapM_eq_error hbefore hx)
      exact ⟨before, x, after, rfl, hbefore, hx⟩
  · rintro ⟨before, x, after, rfl, hbefore, hx⟩
    exact mapM_eq_error hbefore hx

theorem exists_map_ok_iff {ε : Type} {f : α → Except ε β} {xs : List α} :
    (∃ ys : List β, xs.map f = ys.map .ok) ↔ ∀ x ∈ xs, ∃ v, f x = .ok v := by
  constructor
  · rintro ⟨ys, h⟩ x hx
    have hmem : f x ∈ ys.map .ok := h ▸ List.mem_map_of_mem hx
    obtain ⟨v, -, hv⟩ := List.mem_map.mp hmem
    exact ⟨v, hv.symm⟩
  · intro h
    rcases map_ok_or_error f xs with hys | ⟨before, x, after, e, rfl, -, hx⟩
    · exact hys
    · obtain ⟨v, hv⟩ := h x (by simp)
      cases hv.symm.trans hx

theorem isSome_mapM_iff {f : α → Option β} {xs : List α} :
    (xs.mapM f).isSome ↔ ∀ x ∈ xs, (f x).isSome := by
  induction xs with
  | nil => simp
  | cons x xs ih =>
    rw [List.mapM_cons, List.forall_mem_cons, ← ih]
    cases f x <;> cases xs.mapM f <;> simp

theorem pairwise_before {R : α → α → Prop} {xs ys : List α} {y : α}
    (h : (xs ++ y :: ys).Pairwise R) : ∀ x ∈ xs, R x y :=
  fun x hx => (List.pairwise_append.mp h).2.2 x hx y List.mem_cons_self

theorem find?_of_unique {p : α → Bool} {xs : List α} {x : α} (hx : x ∈ xs) (hp : p x)
    (h : ∀ y ∈ xs, p y → y = x) : xs.find? p = some x := by
  cases hf : xs.find? p with
  | none => exact absurd hp (List.find?_eq_none.mp hf x hx)
  | some y => rw [h y (List.mem_of_find?_eq_some hf) (List.find?_some hf)]

theorem find?_key {key : α → String} {xs : List α} {x : α} (hx : x ∈ xs)
    (h : ∀ y ∈ xs, key y = key x → y = x) : xs.find? (fun y => key y == key x) = some x :=
  find?_of_unique hx (by simp) fun y hy heq => h y hy (by simpa using heq)

/-- Where at most one element has a property, keeping those that have it finds the first of them. -/
theorem filter_eq_toList_find? {p : α → Bool} {xs : List α}
    (h : xs.Pairwise fun x y => p x → ¬ p y) : xs.filter p = (xs.find? p).toList := by
  induction xs with
  | nil => rfl
  | cons x xs ih =>
    obtain ⟨hx, hxs⟩ := List.pairwise_cons.mp h
    cases hp : p x with
    | false =>
      rw [List.filter_cons_of_neg (by simp [hp]), List.find?_cons_of_neg (by simp [hp]), ih hxs]
    | true =>
      have hnone : xs.filter p = [] := List.filter_eq_nil_iff.mpr fun y hy => hx y hy hp
      rw [List.filter_cons_of_pos hp, List.find?_cons_of_pos hp, hnone]
      rfl

theorem notMem_of_mem_splitOn [BEq α] [LawfulBEq α] {x : α} {xs part : List α}
    (h : part ∈ xs.splitOn x) : x ∉ part := by
  induction xs generalizing part with
  | nil =>
    rw [List.splitOn_nil, List.mem_singleton] at h
    exact h ▸ List.not_mem_nil
  | cons y xs ih =>
    rw [List.splitOn_cons_eq_if_modifyHead] at h
    split at h
    · rcases List.mem_cons.mp h with rfl | h
      · exact List.not_mem_nil
      · exact ih h
    · next hy =>
      obtain ⟨first, rest, hsplit⟩ := List.exists_cons_of_ne_nil (List.splitOn_ne_nil x xs)
      rw [hsplit] at h ih
      rcases List.mem_cons.mp h with rfl | h
      · rw [List.mem_cons, not_or]
        exact ⟨fun hxy => hy (beq_iff_eq.mpr hxy.symm), ih List.mem_cons_self⟩
      · exact ih (List.mem_cons_of_mem _ h)

end StockScreen
