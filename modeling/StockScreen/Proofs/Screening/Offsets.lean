import Mathlib.Data.Finset.Card
import Mathlib.Data.String.Basic
import StockScreen.Proofs.Ordered
import StockScreen.Proofs.Screening.Hindsight
import StockScreen.Proofs.Screening.Weeks
import StockScreen.Proofs.Screening.Windows

/-! # Offsets count back

The date at an offset is the one so many periods back: of the trading dates up
to the anchor, of the distinct times that the store gives, or of the dates
picked for weeks. A week's dates stay in the order in which they are picked.
-/

namespace StockScreen

/-- The text is one of these, and `k` distinct ones of them are greater. -/
def RankedAt (texts : List String) (k : Nat) (x : String) : Prop :=
  x ∈ texts ∧ (texts.toFinset.filter (x < ·)).card = k

theorem getElem?_eq_some_iff_of_descending {xs : List String} (h : xs.Pairwise (· > ·)) {k : Nat}
    {x : String} : xs[k]? = some x ↔ x ∈ xs ∧ (xs.filter (x < ·)).length = k := by
  induction xs generalizing k with
  | nil => simp
  | cons d xs ih =>
    obtain ⟨hd, hxs⟩ := List.pairwise_cons.mp h
    have hfirst : (d :: xs).filter (d < ·) = [] := by
      refine List.filter_eq_nil_iff.mpr fun y hy => ?_
      rw [decide_eq_true_iff, not_lt]
      rcases List.mem_cons.mp hy with rfl | hy
      · exact le_rfl
      · exact le_of_lt (hd y hy)
    have hrest : ∀ y ∈ xs, (d :: xs).filter (y < ·) = d :: xs.filter (y < ·) := fun y hy =>
      List.filter_cons_of_pos (decide_eq_true (hd y hy))
    constructor
    · intro hk
      cases k with
      | zero =>
        cases hk
        exact ⟨List.mem_cons_self, congrArg List.length hfirst⟩
      | succ k =>
        obtain ⟨hmem, hlen⟩ := (ih hxs).mp hk
        exact ⟨List.mem_cons_of_mem _ hmem, by rw [hrest x hmem, List.length_cons, hlen]⟩
    · rintro ⟨hmem, rfl⟩
      rcases List.mem_cons.mp hmem with rfl | hmem
      · rw [hfirst]
        rfl
      · rw [hrest x hmem]
        exact (ih hxs).mpr ⟨hmem, rfl⟩

namespace Window

variable {dates feed : List String} {anchor x : String} {k i size : Nat}

theorem dateAt?_ofDates : (ofDates dates).dateAt? k = some x ↔ RankedAt dates k x := by
  have hset : (descending dates).toFinset = dates.toFinset := by
    ext y
    simp
  have hcard : ((descending dates).filter (x < ·)).length =
      (dates.toFinset.filter (x < ·)).card := by
    have hnodup := ((pairwise_descending dates).imp ne_of_gt).filter fun y => decide (x < y)
    rw [← List.toFinset_card_of_nodup hnodup, List.toFinset_filter, hset]
    simp
  rw [dateAt?, ofDates, getElem?_eq_some_iff_of_descending (pairwise_descending dates),
    mem_descending, hcard]
  rfl

/-- Of a descending feed the daily window holds the first dates up to the anchor. -/
theorem dates_daily (h : feed.Pairwise (· > ·)) (anchor : String) (size : Nat) :
    (daily feed anchor size).dates = (feed.filter (· ≤ anchor)).take size := by
  rw [daily, dropWhile_eq_filter h]
  exact descending_of_pairwise ((h.filter _).take)

theorem filter_le_of_getElem? (h : feed.Pairwise (· > ·)) (hi : feed[i]? = some anchor) :
    feed.filter (· ≤ anchor) = feed.drop i := by
  obtain ⟨hlt, rfl⟩ := List.getElem?_eq_some_iff.mp hi
  have hsplit : feed = feed.take i ++ feed[i] :: feed.drop (i + 1) := by
    rw [← List.drop_eq_getElem_cons, List.take_append_drop]
  obtain ⟨-, hrest, hbefore⟩ := List.pairwise_append.mp (hsplit ▸ h)
  have hlater : (feed.take i).filter (· ≤ feed[i]) = [] := by
    refine List.filter_eq_nil_iff.mpr fun d hd => ?_
    rw [decide_eq_true_iff, not_le]
    exact hbefore d hd _ List.mem_cons_self
  have hupTo : (feed.drop i).filter (· ≤ feed[i]) = feed.drop i := by
    refine List.filter_eq_self.mpr fun d hd => decide_eq_true ?_
    rw [List.drop_eq_getElem_cons hlt] at hd
    rcases List.mem_cons.mp hd with rfl | hd
    · exact le_rfl
    · exact le_of_lt ((List.pairwise_cons.mp hrest).1 d hd)
  calc feed.filter (· ≤ feed[i])
      = (feed.take i).filter (· ≤ feed[i]) ++ (feed.drop i).filter (· ≤ feed[i]) := by
        rw [← List.filter_append, List.take_append_drop]
    _ = feed.drop i := by rw [hlater, hupTo, List.nil_append]

theorem dateAt?_daily (h : feed.Pairwise (· > ·)) (anchor : String) (size k : Nat) :
    (daily feed anchor size).dateAt? k =
      if k < size then (feed.filter (· ≤ anchor))[k]? else none := by
  rw [dateAt?, dates_daily h, List.getElem?_take]

end Window

namespace Weeks

variable {gap : Int} {count : Nat} {candidates : List String}

theorem ofDates_kept (gap : Int) (count : Nat) (h : candidates.Pairwise (· > ·)) :
    (Window.ofDates (pick gap count candidates).kept).dates = (pick gap count candidates).kept :=
  descending_of_pairwise <| h.sublist <|
    (sublist_pickAfter gap none count candidates).trans List.filter_sublist

theorem laterBy_kept {k : Nat} {x y : String}
    (hx : (pick gap count candidates).kept[k]? = some x)
    (hy : (pick gap count candidates).kept[k + 1]? = some y) : LaterBy gap x y := by
  obtain ⟨hlt, rfl⟩ := List.getElem?_eq_some_iff.mp hy
  obtain ⟨-, rfl⟩ := List.getElem?_eq_some_iff.mp hx
  exact List.isChain_iff_getElem.mp (isChain_pickAfter gap none count candidates).1 k hlt

end Weeks

namespace Screener

open DataStore (Exchange)

variable {σ : Type} {sc : Screener σ} {anchor : String} {s t : σ} {rows : List Row}

theorem result_resolve_hourly
    (h : sc.store.answer (.hourlyTimes (anchor ++ " " ++ sc.settings.cutoff.text)
      sc.settings.hourlyLookback) s = (.ok rows, t)) :
    (sc.resolve .hourly anchor).result s =
      (.ok (.ofDates (rows.filterMap (Row.text? · "ts"))), t) :=
  result_resolve_of_ok <| Session.result_bind_of_ok <| DataStore.result_askColumn_of_ok _ h

theorem result_resolve_weekly
    (h : sc.store.answer (.weeklyDates anchor sc.settings.weeklyLookback) s = (.ok rows, t)) :
    (sc.resolve .weekly anchor).result s =
      (.ok (.ofDates (Weeks.pick sc.settings.weeklyGap sc.settings.weeklyCount
        (rows.filterMap (Row.text? · "t"))).kept), t) :=
  result_resolve_of_ok <| Session.result_bind_of_ok <| DataStore.result_askColumn_of_ok _ h

/-- What the windows for an anchor hold at their offsets, with the store in a state. -/
structure CountsBack (sc : Screener σ) (anchor : String) (s : σ) : Prop where
  /-- Of the dates of a descending feed up to the anchor, without a question to the store. -/
  daily : sc.feed.Pairwise (· > ·) → ∀ log : List Exchange, ∃ w,
    (sc.recording.resolve .daily anchor).result (s, log) = (.ok w, s, log) ∧
      (∀ k, w.dateAt? k =
        if k < sc.settings.dailyWindow then (sc.feed.filter (· ≤ anchor))[k]? else none) ∧
      ∀ i, sc.feed[i]? = some anchor → ∀ k < sc.settings.dailyWindow,
        w.dateAt? k = sc.feed[i + k]?
  /-- Of the times answered, however they are ordered and repeated. -/
  hourly : ∀ rows t, sc.store.answer (.hourlyTimes (anchor ++ " " ++ sc.settings.cutoff.text)
      sc.settings.hourlyLookback) s = (.ok rows, t) →
    ∃ w, (sc.resolve .hourly anchor).result s = (.ok w, t) ∧
      ∀ k x, w.dateAt? k = some x ↔ RankedAt (rows.filterMap (Row.text? · "ts")) k x
  /-- Of the dates picked from those answered, in the order of the pick. -/
  weekly : ∀ rows t,
    sc.store.answer (.weeklyDates anchor sc.settings.weeklyLookback) s = (.ok rows, t) →
    (rows.filterMap (Row.text? · "t")).Pairwise (· > ·) →
    ∃ w, (sc.resolve .weekly anchor).result s = (.ok w, t) ∧
      w.dates = (Weeks.pick sc.settings.weeklyGap sc.settings.weeklyCount
        (rows.filterMap (Row.text? · "t"))).kept ∧
      (∀ k x y, w.dateAt? k = some x → w.dateAt? (k + 1) = some y →
        Weeks.LaterBy sc.settings.weeklyGap x y) ∧
      w.dates.length ≤ sc.settings.weeklyCount

/-- The date at an offset lies so many periods back from the anchor. -/
theorem offsets_count_back (sc : Screener σ) (anchor : String) (s : σ) :
    sc.CountsBack anchor s where
  daily hfeed log := by
    refine ⟨.daily sc.feed anchor sc.settings.dailyWindow, rfl,
      Window.dateAt?_daily hfeed anchor _, fun i hi k hk => ?_⟩
    rw [Window.dateAt?_daily hfeed, if_pos hk, Window.filter_le_of_getElem? hfeed hi,
      List.getElem?_drop]
  hourly rows t hrows := ⟨_, result_resolve_hourly hrows, fun _ _ => Window.dateAt?_ofDates⟩
  weekly rows t hrows hdesc := by
    have hdates := Weeks.ofDates_kept sc.settings.weeklyGap sc.settings.weeklyCount hdesc
    refine ⟨_, result_resolve_weekly hrows, hdates, fun k x y hx hy => ?_, ?_⟩
    · rw [Window.dateAt?, hdates] at hx hy
      exact Weeks.laterBy_kept hx hy
    · rw [hdates]
      exact Weeks.length_pickAfter_le ..

def assorted : Screener Unit where
  store := .fixed fun
    | .hourlyTimes .. =>
      [[("ts", .text "2024-01-11 10:00:00")], [("ts", .null)],
        [("ts", .text "2024-01-11 13:00:00")], [("ts", .text "2024-01-11 10:00:00")]]
    | .weeklyDates .. =>
      ["2024-1-9", "2024-01-12", "2024-01-02"].map fun date => [("t", .text date)]
    | _ => []
  catalogs := ⟨⟨"", []⟩, ⟨"", []⟩, ⟨"", []⟩, ⟨"", []⟩⟩
  settings := {}
  feed := ["2024-01-12", "2024-01-11", "2024-01-09"]

theorem assorted_counts_back :
    assorted.feed.Pairwise (· > ·) ∧
      (∃ w, (assorted.recording.resolve .daily "2024-01-11").result ((), []) = (.ok w, (), []) ∧
        w.dateAt? 1 = some "2024-01-09") ∧
      (∃ w, (assorted.resolve .hourly "2024-01-11").result () = (.ok w, ()) ∧
        w.dateAt? 1 = some "2024-01-11 10:00:00") ∧
      ∃ w, (assorted.resolve .weekly "2024-01-11").result () = (.ok w, ()) ∧
        w.dates = ["2024-1-9", "2024-01-02"] ∧ Weeks.LaterBy 6 "2024-1-9" "2024-01-02" := by
  have hfeed : assorted.feed.Pairwise (· > ·) := by decide +kernel
  obtain ⟨hdaily, hhourly, hweekly⟩ := offsets_count_back assorted "2024-01-11" ()
  refine ⟨hfeed, ?_, ?_, ?_⟩
  · obtain ⟨w, hw, -, hdates⟩ := hdaily hfeed []
    exact ⟨w, hw, hdates 1 rfl 1 (by decide)⟩
  · obtain ⟨w, hw, htimes⟩ := hhourly _ () rfl
    exact ⟨w, hw, (htimes 1 _).mpr ⟨by decide +kernel, by decide +kernel⟩⟩
  · obtain ⟨w, hw, hdates, hgaps, -⟩ := hweekly _ () rfl (by decide +kernel)
    have hpicked : w.dates = ["2024-1-9", "2024-01-02"] := hdates.trans (by decide +kernel)
    exact ⟨w, hw, hpicked, hgaps 0 _ _ (by rw [Window.dateAt?, hpicked]; rfl)
      (by rw [Window.dateAt?, hpicked]; rfl)⟩

end Screener

end StockScreen
