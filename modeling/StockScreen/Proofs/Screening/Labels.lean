import StockScreen.Proofs.Indicator.Lookup
import StockScreen.Proofs.Planning.Joins
import StockScreen.Proofs.Screening.Offsets
import StockScreen.Proofs.Screening.SharedWindows
import StockScreen.Proofs.Screening.Spelling

/-! # Labels and the windows they reach

Each timeframe has words for six periods, the newest one included. With the
settings of a new screen the windows of hours and of days hold as many dates,
if there are so many, but that of weeks ends with the fourth. A prompt whose
words are offered compiles to a comparison, which is false where one of its
words goes beyond the window.
-/

namespace StockScreen

open Text (plain)
open Query (Request)
open DataStore (Faulted exists_ok_of_not_faulted)

/-! ## Prompts made of the words on offer -/

/-- A label of the timeframe with an indicator of its catalog, or a value without a time. -/
inductive Catalogs.Offers (catalogs : Catalogs) (tf : Timeframe) (label name : String) : Prop
  | periods (hlabel : plain label ∈ tf.offsetLabels)
    (hname : Text.trim name ∈ (catalogs.timeframe tf).names) : Offers catalogs tf label name
  | other {entry : Indicator} {table : String} (hlabel : plain label = "other")
    (hentry : catalogs.fundamentals.lookup name = .ok entry)
    (hhome : entry.home = .fundamental table) : Offers catalogs tf label name

/-- A label and an indicator name the table of a timeframe shifted back. -/
def Shift.NamedBy (catalogs : Catalogs) (tf : Timeframe) (label name : String) (s : Shift) : Prop :=
  tf.offsetLabels[s.offset]? = some (plain label) ∧
    ∃ entry, (catalogs.timeframe tf).lookup name = .ok entry ∧ entry.home = .timeframe s.kind

namespace Prompt

structure Offered (catalogs : Catalogs) (tf : Timeframe) (p : Prompt) : Prop where
  left : catalogs.Offers tf p.leftOffset p.leftIndicator
  operator : ∃ op : Comparison, op.HasWord (plain p.operator)
  right : plain p.rightOffset = "custom value" ∨
    catalogs.Offers tf p.rightOffset p.rightIndicator

def Names (catalogs : Catalogs) (tf : Timeframe) (p : Prompt) (s : Shift) : Prop :=
  s.NamedBy catalogs tf p.leftOffset p.leftIndicator ∨
    s.NamedBy catalogs tf p.rightOffset p.rightIndicator

end Prompt

variable {catalogs : Catalogs} {policy : OperatorPolicy} {tf : Timeframe} {label name : String}
  {p : Prompt} {c : Condition} {cs : List Condition} {w : Window} {allow : Option (List String)}

theorem Catalog.exists_lookup {catalog : Catalog} (h : Text.trim name ∈ catalog.names) :
    ∃ entry, catalog.lookup name = .ok entry := by
  obtain ⟨entry, hentry, hname⟩ := List.mem_map.mp h
  have hsome : (catalog.find? name).isSome :=
    List.find?_isSome.mpr ⟨entry, hentry, beq_iff_eq.mpr hname⟩
  obtain ⟨found, hfound⟩ := Option.isSome_iff_exists.mp hsome
  exact ⟨found, lookup_eq_ok_iff.mpr hfound⟩

theorem Catalogs.Offers.exists_namedBy (h : catalogs.Offers tf label name) :
    ∃ col : ColumnRef, col.NamedBy catalogs tf label name := by
  cases h with
  | @other entry table hlabel hentry hhome =>
    refine ⟨⟨tf, .table table, entry.column⟩, rfl, nofun, ?_⟩
    rintro _ ⟨⟩
    exact ⟨entry, .inr ⟨hlabel, hentry⟩, hhome, rfl⟩
  | periods hlabel hname =>
    obtain ⟨offset, hplace⟩ := List.mem_iff_getElem?.mp hlabel
    obtain ⟨entry, hentry⟩ := Catalog.exists_lookup hname
    cases hhome : entry.home with
    | fundamental table =>
      refine ⟨⟨tf, .table table, entry.column⟩, rfl, nofun, ?_⟩
      rintro _ ⟨⟩
      exact ⟨entry, .inl ⟨hlabel, hentry⟩, hhome, rfl⟩
    | timeframe kind =>
      have hle : offset ≤ 5 := by
        obtain ⟨hlt, -⟩ := List.getElem?_eq_some_iff.mp hplace
        rw [Timeframe.length_offsetLabels] at hlt
        exact Nat.le_of_lt_succ hlt
      refine ⟨⟨tf, .shifted offset kind, entry.column⟩, rfl, ?_, nofun⟩
      rintro _ _ ⟨⟩
      exact ⟨hle, hplace, entry, hentry, hhome, rfl⟩

theorem Prompt.Names.offset_lt {s : Shift} (h : p.Names catalogs tf s) : s.offset < 6 := by
  rcases h with ⟨hplace, -⟩ | ⟨hplace, -⟩ <;>
    exact tf.length_offsetLabels ▸ (List.getElem?_eq_some_iff.mp hplace).1

theorem ColumnRef.NamedBy.target_eq_iff {col : ColumnRef} (h : col.NamedBy catalogs tf label name)
    {s : Shift} : col.target = .shifted s.offset s.kind ↔ s.NamedBy catalogs tf label name := by
  constructor
  · intro htarget
    obtain ⟨-, hplace, entry, hentry, hhome, -⟩ := h.shifted _ _ htarget
    exact ⟨hplace, entry, hentry, hhome⟩
  · rintro ⟨hplace, entry, hentry, hhome⟩
    have hread : OffsetLabel.read? tf label = some (.periods s.offset) :=
      OffsetLabel.read?_eq_some_iff.mpr hplace
    have hcol := Condition.resolveColumn_of_namedBy h
    rw [Condition.resolveColumn, hread] at hcol
    obtain ⟨entry', hentry', hcol⟩ := bind_eq_ok_iff.mp hcol
    cases hentry.symm.trans hentry'
    rw [hhome] at hcol
    cases hcol
    rfl

namespace Condition

theorem exists_compile (policy : OperatorPolicy) (h : p.Offered catalogs tf) :
    ∃ c, (compile catalogs policy tf p).outcome = .ok c := by
  obtain ⟨left, hleft⟩ := h.left.exists_namedBy
  obtain ⟨op, hop⟩ := h.operator
  by_cases hcustom : plain p.rightOffset = "custom value"
  · refine ⟨⟨left, op, .literal p.rightIndicator⟩, compile_eq_ok_iff.mpr ?_⟩
    refine ⟨hleft, .inl hop, nofun, iff_of_true ⟨_, rfl⟩ hcustom, ?_⟩
    rintro _ ⟨⟩
    rfl
  · obtain ⟨right, hright⟩ := (h.right.resolve_left hcustom).exists_namedBy
    refine ⟨⟨left, op, .column right⟩, compile_eq_ok_iff.mpr ?_⟩
    refine ⟨hleft, .inl hop, ?_, iff_of_false nofun hcustom, nofun⟩
    rintro _ ⟨⟩
    exact hright

theorem Reads.names_iff (h : c.Reads catalogs policy tf p) {s : Shift} :
    p.Names catalogs tf s ↔ ∃ col ∈ c.columns, col.target = .shifted s.offset s.kind := by
  rcases c with ⟨left, operator, right⟩
  cases right with
  | column col =>
    simp only [columns, Operand.column?, Option.toList_some, List.mem_cons, List.not_mem_nil,
      or_false, exists_eq_or_imp, exists_eq_left, Prompt.Names]
    rw [h.left.target_eq_iff, (h.right col rfl).target_eq_iff]
  | literal text =>
    have hcustom := h.literal.mp ⟨text, rfl⟩
    have hright : ¬ s.NamedBy catalogs tf p.rightOffset p.rightIndicator := by
      rintro ⟨hplace, -⟩
      rw [hcustom] at hplace
      have hmem := List.mem_of_getElem? hplace
      revert hmem
      cases tf <;> decide +kernel
    simp only [columns, Operand.column?, Option.toList_none, List.mem_singleton, exists_eq_left,
      Prompt.Names]
    rw [h.left.target_eq_iff, or_iff_left hright]

theorem Reads.refers (h : c.Reads catalogs policy tf p) (hc : c ∈ cs) {s : Shift}
    (hs : p.Names catalogs tf s) (hpos : 0 < s.offset) : Refers cs s := by
  obtain ⟨col, hcol, htarget⟩ := h.names_iff.mp hs
  exact ⟨hpos, c, hc, col, hcol, htarget⟩

theorem Reads.reachesBeyond_iff (h : c.Reads catalogs policy tf p) :
    c.ReachesBeyond w ↔ ∃ s, p.Names catalogs tf s ∧ 0 < s.offset ∧ w.dates.length ≤ s.offset := by
  simp only [h.names_iff]
  constructor
  · rintro ⟨col, hcol, offset, kind, htarget, hpos, hle⟩
    exact ⟨⟨offset, kind⟩, ⟨col, hcol, htarget⟩, hpos, hle⟩
  · rintro ⟨s, ⟨col, hcol, htarget⟩, hpos, hle⟩
    exact ⟨col, hcol, _, _, htarget, hpos, hle⟩

end Condition

/-! ## How far windows reach -/

theorem length_descending (xs : List String) : (descending xs).length = xs.toFinset.card := by
  have hnodup : (descending xs).Nodup := (pairwise_descending xs).imp ne_of_gt
  rw [← List.toFinset_card_of_nodup hnodup]
  congr 1
  ext x
  simp

namespace Weeks

variable {gap : Int} {dates : List String}

theorem nodup_of_isChain (hgap : 0 < gap) (h : dates.IsChain (LaterBy gap)) : dates.Nodup := by
  refine (pairwise_of_isChain (le_of_lt hgap) h).imp ?_
  rintro x _ ⟨a, b, ha, hb, hab⟩ rfl
  cases ha.symm.trans hb
  omega

theorem length_window_le (gap : Int) (count : Nat) (dates : List String) :
    (Window.ofDates (pick gap count dates).kept).dates.length ≤ count :=
  calc (descending (pick gap count dates).kept).length
      = (pick gap count dates).kept.toFinset.card := length_descending _
    _ ≤ (pick gap count dates).kept.length := List.toFinset_card_le _
    _ ≤ count := length_pickAfter_le ..

theorem min_length_le_window (hgap : 0 < gap) (h : (readable dates).IsChain (LaterBy gap))
    (count : Nat) :
    min count (readable dates).length ≤
      (Window.ofDates (pick gap count dates).kept).dates.length := by
  have hdesc : (readable dates).Pairwise (LaterBy 0) :=
    (pairwise_of_isChain (le_of_lt hgap) h).imp fun hxy => hxy.mono (le_of_lt hgap)
  have hnodup : (pick gap count dates).kept.Nodup :=
    nodup_of_isChain hgap (isChain_pickAfter gap none count dates).1
  calc min count (readable dates).length
      ≤ (pick gap count dates).kept.length :=
        min_length_le gap none count dates hdesc (List.Sublist.refl _) h nofun
    _ = (pick gap count dates).kept.toFinset.card := (List.toFinset_card_of_nodup hnodup).symm
    _ = (descending (pick gap count dates).kept).length := (length_descending _).symm

end Weeks

namespace Screener

variable {σ : Type} (sc : Screener σ) (rows : Request → List Row) (anchor : String)

/-- Each label has a period of its own: six dates or times, those of weeks far enough apart. -/
def LongHistory : Timeframe → Prop
  | .hourly =>
    let cutoff := anchor ++ " " ++ sc.settings.cutoff.text
    6 ≤ ((rows (.hourlyTimes cutoff sc.settings.hourlyLookback)).filterMap
      (Row.text? · "ts")).toFinset.card
  | .daily => sc.feed.Pairwise (· > ·) ∧ 6 ≤ (sc.feed.filter (· ≤ anchor)).length
  | .weekly =>
    let dates := (rows (.weeklyDates anchor sc.settings.weeklyLookback)).filterMap
      (Row.text? · "t")
    6 ≤ (Weeks.readable dates).length ∧ (Weeks.readable dates).IsChain (Weeks.LaterBy 6)

variable {sc rows anchor}

variable (rows anchor) in
theorem length_weekly_le (hsettings : sc.settings = {}) :
    (sc.windowFrom rows anchor .weekly).dates.length ≤ 4 := by
  rw [windowFrom, hsettings]
  exact Weeks.length_window_le ..

/-- A long history fills the windows. That of weeks is the only one with fewer dates than labels. -/
theorem le_length_windowFrom (hsettings : sc.settings = {}) (h : sc.LongHistory rows anchor tf) :
    (if tf = .weekly then 4 else 6) ≤ (sc.windowFrom rows anchor tf).dates.length := by
  cases tf with
  | hourly => exact h.trans_eq (length_descending _).symm
  | daily =>
    obtain ⟨hfeed, hlong⟩ := h
    rw [windowFrom, Window.dates_daily hfeed, List.length_take, hsettings]
    exact Nat.le_min.mpr ⟨Nat.le_refl 6, hlong⟩
  | weekly =>
    obtain ⟨hlong, hchain⟩ := h
    rw [windowFrom, hsettings]
    rw [hsettings] at hlong hchain
    refine le_trans ?_ (Weeks.min_length_le_window (by decide) hchain 4)
    exact Nat.le_min.mpr ⟨Nat.le_refl 4, Nat.le_trans (by decide) hlong⟩

theorem exists_condition {rule : Rule} (hcs : sc.conditions rule tf = .ok cs)
    (hp : p ∈ rule.prompts tf) :
    ∃ c ∈ cs, (Condition.compile sc.catalogs sc.settings.policy tf p).outcome = .ok c := by
  rw [conditions, Condition.outcome_compileAll, mapM_eq_ok_iff] at hcs
  obtain ⟨c, hc, heq⟩ := List.mem_map.mp (hcs ▸ List.mem_map_of_mem hp)
  exact ⟨c, hc, heq.symm⟩

variable (anchor allow) in
theorem outcome_plans (h : sc.store.Truthful rows fun _ _ => False) {rule : Rule}
    {compiled : List Compiled} (hrule : (sc.compile rule).outcome = .ok compiled) (s : σ) :
    (sc.plans rule anchor allow s).1.outcome = .ok (sc.plansFrom rows anchor allow compiled) := by
  have hplans : (sc.plans rule anchor allow).Ensures s
      (fun ps _ => ps = sc.plansFrom rows anchor allow compiled) (Faulted fun _ _ => False) := by
    apply (ensures_plans h rule anchor allow s).mono
    · rintro _ t ⟨compiled', hrule', rfl⟩
      cases hrule.symm.trans hrule'
      rfl
    · rintro e t (hfault | he)
      · exact hfault
      · cases hrule.symm.trans he
  obtain ⟨_, hok, rfl⟩ := exists_ok_of_not_faulted hplans
  exact hok

/-- What the plan of a timeframe makes of a prompt, with the windows of a new screen. -/
structure Treats (sc : Screener σ) (rows : Request → List Row) (anchor : String) (plan : Plan)
    (p : Prompt) (c : Condition) : Prop where
  compiled : (Condition.compile sc.catalogs sc.settings.policy plan.timeframe p).outcome = .ok c
  mem : c ∈ plan.conditions
  /-- A long history has a date for each label of hours and days, and for four labels of weeks. -/
  compared : sc.LongHistory rows anchor plan.timeframe →
    (plan.timeframe = .weekly →
      ∀ s, p.Names sc.catalogs plan.timeframe s → s.offset < 4) →
    (∀ s, p.Names sc.catalogs plan.timeframe s →
      s ∉ plan.dropped ∧ (0 < s.offset → s ∈ plan.joins.map DatedShift.shift)) ∧
    c.Compares (plan.conditionPredicate c)
  /-- The other two labels of weeks have no date, however long the history is. -/
  dropped : plan.timeframe = .weekly → ∀ s, p.Names sc.catalogs plan.timeframe s →
    4 ≤ s.offset → s ∈ plan.dropped ∧ plan.conditionPredicate c = .never

variable (allow) in
theorem treats_make (hsettings : sc.settings = {})
    (hp : (Condition.compile sc.catalogs sc.settings.policy tf p).outcome = .ok c) (hc : c ∈ cs) :
    sc.Treats rows anchor (.make tf cs (sc.windowFrom rows anchor tf) allow) p c := by
  have hreads := Condition.compile_eq_ok_iff.mp hp
  refine ⟨hp, hc, fun hlong hweekly => ?_, ?_⟩
  · have hreach : ∀ s, p.Names sc.catalogs tf s →
        s.offset < (sc.windowFrom rows anchor tf).dates.length := by
      intro s hs
      refine Nat.lt_of_lt_of_le ?_ (le_length_windowFrom hsettings hlong)
      split
      · next htf => exact hweekly htf s hs
      · exact hs.offset_lt
    have hin : ¬ c.ReachesBeyond (sc.windowFrom rows anchor tf) := by
      rw [hreads.reachesBeyond_iff]
      rintro ⟨s, hs, -, hle⟩
      exact Nat.not_lt.mpr hle (hreach s hs)
    refine ⟨fun s hs => ⟨?_, fun hpos => ?_⟩, Plan.compares_conditionPredicate hc hin⟩
    · rw [Plan.mem_dropped]
      exact fun hdropped => Nat.not_lt.mpr hdropped.2 (hreach s hs)
    · exact Plan.mem_map_shift_joins.mpr ⟨hreads.refers hc hs hpos, hreach s hs⟩
  · rintro rfl s hs hle
    have hpos : 0 < s.offset := Nat.lt_of_lt_of_le (by decide) hle
    have hbeyond := (length_weekly_le rows anchor hsettings).trans hle
    exact ⟨Plan.mem_dropped.mpr ⟨hreads.refers hc hs hpos, hbeyond⟩,
      (Plan.conditionPredicate_eq_never_iff hc).mpr
        (hreads.reachesBeyond_iff.mpr ⟨s, hs, hpos, hbeyond⟩)⟩

/-- With the settings of a new screen a rule made of words on offer has a plan for each of its
timeframes, unless the store fails. With a long history every label of hours and days is compared
there, and so are the labels of weeks up to the third week back. The two labels beyond never are. -/
theorem plans_reach_labels (sc : Screener σ) (rows : Request → List Row)
    (F : StoreFault → σ → Prop) (rule : Rule) (anchor : String) (allow : Option (List String))
    (s : σ) (hsettings : sc.settings = {}) (hstore : sc.store.Truthful rows F)
    (hne : rule.allPrompts ≠ []) (hoffered : ∀ q ∈ rule.allPrompts, q.2.Offered sc.catalogs q.1) :
    (sc.plans rule anchor allow).Ensures s
      (fun plans _ => List.Forall₂ (fun tf plan => plan.timeframe = tf ∧
        ∀ p ∈ rule.prompts tf, ∃ c, sc.Treats rows anchor plan p c) rule.active plans)
      (Faulted F) := by
  have hcompiled : ∀ q ∈ rule.allPrompts, ∃ c, sc.condition q = .ok c := fun q hq =>
    Condition.exists_compile sc.settings.policy (hoffered q hq)
  obtain ⟨cs, hcs⟩ := exists_compile hne hcompiled
  obtain ⟨-, hactive⟩ := (sc.ensures_compile rule).ok cs hcs
  apply (ensures_plans hstore rule anchor allow s).mono
  · rintro _ t ⟨cs', hcs', rfl⟩
    cases hcs.symm.trans hcs'
    rw [← hactive.timeframes, plansFrom, List.forall₂_map_left_iff, List.forall₂_map_right_iff,
      List.forall₂_same]
    intro compiled hmem
    refine ⟨rfl, fun p hp => ?_⟩
    obtain ⟨c, hc, hpc⟩ := exists_condition (hactive.conditions compiled hmem) hp
    exact ⟨c, treats_make allow hsettings hpc hc⟩
  · rintro e t (hfault | he)
    · exact hfault
    · cases hcs.symm.trans he

def priceAt (label : String) : Prompt := ⟨label, "closing price", ">", "custom value", "1"⟩

theorem plain_of_mem_offsetLabels (h : label ∈ tf.offsetLabels) : plain label = label := by
  revert label
  cases tf <;> decide +kernel

theorem offered_priceAt (h : label ∈ tf.offsetLabels) :
    (priceAt label).Offered Standard.catalogs tf := by
  have hcustom : plain "custom value" = "custom value" := by decide +kernel
  have hgreater : Comparison.greater.HasWord (plain ">") := .inl (by decide +kernel)
  have hprice : Text.trim "closing price" ∈ (Standard.catalogs.timeframe tf).names := by
    cases tf <;> decide +kernel
  have hlabel : plain label ∈ tf.offsetLabels := (plain_of_mem_offsetLabels h).symm ▸ h
  exact ⟨.periods hlabel hprice, ⟨.greater, hgreater⟩, .inl hcustom⟩

theorem getElem?_of_names_priceAt {s : Shift} (h : (priceAt label).Names catalogs tf s) :
    tf.offsetLabels[s.offset]? = some (plain label) := by
  rcases h with ⟨hplace, -⟩ | ⟨hplace, -⟩
  · exact hplace
  · have hcustom : plain "custom value" ∉ tf.offsetLabels := by cases tf <;> decide +kernel
    exact absurd (List.mem_of_getElem? hplace) hcustom

def sixRows : Request → List Row
  | .hourlyTimes .. =>
    ["2024-03-29 14:00:00", "2024-03-29 13:00:00", "2024-03-29 12:00:00", "2024-03-29 11:00:00",
      "2024-03-29 10:00:00", "2024-03-29 09:00:00"].map fun time => [("ts", .text time)]
  | .weeklyDates .. =>
    ["2024-03-29", "2024-03-22", "2024-03-15", "2024-03-08", "2024-03-01", "2024-02-23"].map
      fun date => [("t", .text date)]
  | _ => []

def sixPeriods : Screener Unit where
  store := .fixed sixRows
  catalogs := Standard.catalogs
  settings := {}
  feed := ["2024-03-29", "2024-03-28", "2024-03-27", "2024-03-26", "2024-03-25", "2024-03-22"]

theorem long_sixPeriods (tf : Timeframe) : sixPeriods.LongHistory sixRows "2024-03-29" tf := by
  unfold LongHistory
  cases tf <;> decide +kernel

def everyReach : Rule where
  hourly := Timeframe.hourly.offsetLabels.map priceAt
  daily := Timeframe.daily.offsetLabels.map priceAt
  weekly := (Timeframe.weekly.offsetLabels.take 4).map priceAt

theorem exists_label_of_mem (hp : p ∈ everyReach.prompts tf) :
    ∃ label ∈ tf.offsetLabels,
      (tf = .weekly → label ∈ Timeframe.weekly.offsetLabels.take 4) ∧ priceAt label = p := by
  cases tf with
  | hourly =>
    obtain ⟨label, hlabel, heq⟩ := List.mem_map.mp hp
    exact ⟨label, hlabel, nofun, heq⟩
  | daily =>
    obtain ⟨label, hlabel, heq⟩ := List.mem_map.mp hp
    exact ⟨label, hlabel, nofun, heq⟩
  | weekly =>
    obtain ⟨label, hlabel, heq⟩ := List.mem_map.mp hp
    exact ⟨label, List.mem_of_mem_take hlabel, fun _ => hlabel, heq⟩

theorem lt_of_names_everyReach (hp : p ∈ everyReach.prompts .weekly) {s : Shift}
    (hs : p.Names catalogs .weekly s) : s.offset < 4 := by
  have hfour : ∀ label ∈ Timeframe.weekly.offsetLabels.take 4, ∀ k < 6,
      Timeframe.weekly.offsetLabels[k]? = some label → k < 4 := by decide +kernel
  obtain ⟨label, hmem, hlabel, rfl⟩ := exists_label_of_mem hp
  have hplace := getElem?_of_names_priceAt hs
  rw [plain_of_mem_offsetLabels hmem] at hplace
  exact hfour label (hlabel rfl) s.offset hs.offset_lt hplace

theorem everyReach_compares :
    ∃ plans, (sixPeriods.plans everyReach "2024-03-29" none ()).1.outcome = .ok plans ∧
      List.Forall₂ (fun tf plan => ∀ p ∈ everyReach.prompts tf, ∃ c ∈ plan.conditions,
        c.Compares (plan.conditionPredicate c)) everyReach.active plans := by
  have hoffered : ∀ q ∈ everyReach.allPrompts, q.2.Offered sixPeriods.catalogs q.1 := by
    intro q hq
    obtain ⟨tf, -, hq⟩ := List.mem_flatMap.mp hq
    obtain ⟨p, hp, rfl⟩ := List.mem_map.mp hq
    obtain ⟨label, hlabel, -, rfl⟩ := exists_label_of_mem hp
    exact offered_priceAt hlabel
  have hplans : ∀ rule : Rule, rule.allPrompts ≠ [] →
      (∀ q ∈ rule.allPrompts, q.2.Offered sixPeriods.catalogs q.1) →
      ∃ plans, (sixPeriods.plans rule "2024-03-29" none ()).1.outcome = .ok plans ∧
        List.Forall₂ (fun tf plan => plan.timeframe = tf ∧ ∀ p ∈ rule.prompts tf,
          ∃ c, sixPeriods.Treats sixRows "2024-03-29" plan p c) rule.active plans :=
    fun rule hne hoffered => exists_ok_of_not_faulted <|
      plans_reach_labels sixPeriods sixRows _ rule "2024-03-29" none () rfl
        (DataStore.truthful_fixed sixRows) hne hoffered
  obtain ⟨plans, hok, hall⟩ := hplans everyReach (List.cons_ne_nil _ _) hoffered
  refine ⟨plans, hok, hall.imp ?_⟩
  rintro tf plan ⟨rfl, htreats⟩ p hp
  obtain ⟨c, hc⟩ := htreats p hp
  refine ⟨c, hc.mem, (hc.compared (long_sixPeriods _) fun htf s hs => ?_).2⟩
  rw [htf] at hp hs
  exact lt_of_names_everyReach hp hs

/-- Of six weeks the window has four, so that a price further back is compared with nothing. -/
theorem five_weeks_ago_is_never :
    sixPeriods.settings = {} ∧ sixPeriods.LongHistory sixRows "2024-03-29" .weekly ∧
      "5 weeks ago" ∈ Timeframe.weekly.offsetLabels ∧
      (priceAt "5 weeks ago").Offered sixPeriods.catalogs .weekly ∧
      ∃ plan c, (sixPeriods.plans { weekly := [priceAt "5 weeks ago"] } "2024-03-29" none
          ()).1.outcome = .ok [plan] ∧
        plan.conditions = [c] ∧ ⟨5, .raw⟩ ∈ plan.dropped ∧
        plan.conditionPredicate c = .never := by
  have hlabel : "5 weeks ago" ∈ Timeframe.weekly.offsetLabels := by simp [Timeframe.offsetLabels]
  let c : Condition := ⟨⟨.weekly, .shifted 5 .raw, "c"⟩, .greater, .literal "1"⟩
  have hrule : (sixPeriods.compile { weekly := [priceAt "5 weeks ago"] }).outcome =
      .ok [⟨.weekly, [c]⟩] := by decide +kernel
  have hprompt : (Condition.compile sixPeriods.catalogs sixPeriods.settings.policy .weekly
      (priceAt "5 weeks ago")).outcome = .ok c := by decide +kernel
  have hnames : (priceAt "5 weeks ago").Names sixPeriods.catalogs .weekly ⟨5, .raw⟩ :=
    .inl ⟨by decide +kernel, ⟨"closing price", "c", .timeframe .raw⟩,
      Catalog.lookup_eq_ok_iff.mpr (by decide +kernel), rfl⟩
  have hplans := outcome_plans none "2024-03-29" (DataStore.truthful_fixed sixRows) hrule ()
  have htreats : sixPeriods.Treats sixRows "2024-03-29" _ (priceAt "5 weeks ago") c :=
    treats_make none rfl hprompt (List.mem_singleton_self c)
  obtain ⟨hdropped, hnever⟩ := htreats.dropped rfl ⟨5, .raw⟩ hnames (by decide)
  exact ⟨rfl, long_sixPeriods .weekly, hlabel, offered_priceAt hlabel, _, c, hplans, rfl,
    hdropped, hnever⟩

end Screener

end StockScreen
