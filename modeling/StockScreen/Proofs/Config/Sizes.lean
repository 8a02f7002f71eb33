import StockScreen.Proofs.Config.RoundTrip
import StockScreen.Proofs.Screening.Weeks

/-! # Sizes that a configuration asks for

Room for the dates of a weekly window is made at once, for as many as the
settings count. A store is reached over a number of connections, of which the
last 32 bits are kept. Any count and any number of 64 bits is accepted, so both
sizes are right for the smaller ones only.
-/

namespace StockScreen

/-- The bytes for which room is made before the dates of a weekly window are picked. -/
def Settings.weeklyRoom (s : Settings) : Nat := textBytes * s.weeklyCount

theorem Settings.weeklyRoom_le_iff {s : Settings} :
    s.weeklyRoom ≤ greatestRoom ↔ s.weeklyCount ≤ greatestCount := Weeks.room_iff

theorem Settings.length_kept_le (s : Settings) (candidates : List String) :
    textBytes * (Weeks.pick s.weeklyGap s.weeklyCount candidates).kept.length ≤ s.weeklyRoom :=
  Nat.mul_le_mul_left textBytes (Weeks.length_pickAfter_le ..)

namespace Config

def poolSize (ini : Ini) : Int := ini.getInt "sqlite" "pool_size" 4

variable {ini : Ini} {s : Settings} {c : StoreConfig}

theorem toNat_connections (h : storeConfig ini = .ok c) :
    (c.connections.toNat : Int) = max (poolSize ini) 1 % 2 ^ 32 := by
  unfold storeConfig at h
  split at h
  · cases h
  · cases h
    change ((UInt32.ofNat (max (poolSize ini) 1).toNat).toNat : Int) = _
    rw [UInt32.toNat_ofNat']
    omega

theorem connections_eq_zero_iff (h : storeConfig ini = .ok c) :
    c.connections = 0 ↔ 1 ≤ poolSize ini ∧ 2 ^ 32 ∣ poolSize ini := by
  have hnat := toNat_connections h
  rw [← UInt32.toNat_inj, UInt32.toNat_zero]
  omega

theorem ofText_of_readIni {text : String} (h : readIni text = .ok ini) : ofText text = .ok ini := by
  rw [ofText, h]
  rfl

theorem exists_settings_of_count {n : Nat} (hpos : 1 ≤ n) (hlt : n < 2 ^ 63) :
    ∃ text ini s, ofText text = .ok ini ∧ settings ini = .ok s ∧ s.weeklyCount = n := by
  let s : Settings := { weeklyLookback := n, weeklyCount := n }
  have hcount : 1 ≤ (n : Int) ∧ (n : Int) ≤ 0x7FFFFFFFFFFFFFFF := by omega
  have hdefault : ∀ k : IntegerKey, 1 ≤ k.default ∧ k.default ≤ k.greatest := by
    intro k
    cases k <;> decide
  have hs : InBounds s := by
    refine ⟨fun k => ?_, Nat.le_refl n⟩
    cases k with
    | weeklyLookback => exact hcount
    | weeklyCount => exact hcount
    | dailyWindow => exact hdefault .dailyWindow
    | hourlyLookback => exact hdefault .hourlyLookback
    | weeklyGap => exact hdefault .weeklyGap
  obtain ⟨ini, hread, hsettings⟩ := settings_of_lines hs (List.Perm.refl _)
  exact ⟨_, ini, s, ofText_of_readIni hread, hsettings, rfl⟩

theorem exists_storeConfig_of_poolSize {n : Int} (h : Decimal.FitsInt64 n) :
    ∃ text ini c, ofText text = .ok ini ∧ storeConfig ini = .ok c ∧ poolSize ini = n := by
  let lines : List (String × String) :=
    [("path", "screen.db"), ("pool_size", Decimal.integerText n)]
  have hname : IsName "sqlite".toList := ⟨by decide, List.all_eq_true.mp rfl⟩
  have hpathName : IsName "path".toList := ⟨by decide, List.all_eq_true.mp rfl⟩
  have hpath : IsWord "screen.db".toList := ⟨by decide, List.all_eq_true.mp rfl⟩
  have hpoolName : IsName "pool_size".toList := ⟨by decide, List.all_eq_true.mp rfl⟩
  have hwritable : ∀ e ∈ lines, Writable e :=
    List.forall_mem_cons.mpr ⟨⟨hpathName, hpath⟩, List.forall_mem_singleton.mpr
      ⟨hpoolName, isWord_of_spells (Decimal.spells_integerText n)⟩⟩
  have hkeys : (lines.map Prod.fst).Nodup := (by decide : ["path", "pool_size"].Nodup)
  have hget : ∀ e ∈ lines, (sectionEntries "sqlite" lines).get? "sqlite" e.1 = some e.2 :=
    fun e he => get?_sectionEntries hname hwritable hkeys he
  have hconfig : ∃ c, storeConfig (sectionEntries "sqlite" lines) = .ok c := by
    have hnonEmpty : (sectionEntries "sqlite" lines).nonEmpty? "sqlite" "path" =
        some "screen.db" := by
      rw [Ini.nonEmpty?, hget ("path", "screen.db") List.mem_cons_self]
      decide +kernel
    unfold storeConfig
    rw [hnonEmpty]
    exact ⟨_, rfl⟩
  have hpool : poolSize (sectionEntries "sqlite" lines) = n := by
    have hvalue := hget ("pool_size", Decimal.integerText n) (by simp [lines])
    rw [poolSize, Ini.getInt, hvalue, Option.bind_some,
      Decimal.readInt64?_eq_some_iff.mpr ⟨Decimal.spells_integerText n, h⟩, Option.getD_some]
  obtain ⟨c, hc⟩ := hconfig
  exact ⟨_, _, c, ofText_of_readIni (readIni_sectionText hname hwritable), hc, hpool⟩

structure Sized (ini : Ini) : Prop where
  room : ∀ s, settings ini = .ok s →
    (s.weeklyRoom ≤ greatestRoom ↔ IntegerKey.weeklyCount.read ini ≤ greatestCount)
  /-- A bound on the candidates is one on the room. -/
  lookback : ∀ s, settings ini = .ok s →
    IntegerKey.weeklyLookback.read ini ≤ greatestCount → s.weeklyRoom ≤ greatestRoom
  /-- More room is never needed. -/
  kept : ∀ s, settings ini = .ok s → ∀ candidates,
    textBytes * (Weeks.pick s.weeklyGap s.weeklyCount candidates).kept.length ≤ s.weeklyRoom
  connections : ∀ c, storeConfig ini = .ok c →
    (c.connections.toNat : Int) = max (poolSize ini) 1 % 2 ^ 32
  unconnected : ∀ c, storeConfig ini = .ok c →
    (c.connections = 0 ↔ 1 ≤ poolSize ini ∧ 2 ^ 32 ∣ poolSize ini)

/-- There is room for the dates of a weekly window just with counts up to a greatest one, and a
store has connections unless their number is a multiple of the thirty-second power of two. -/
theorem configured_sizes (ini : Ini) : Sized ini where
  room s hs := by
    rw [Settings.weeklyRoom_le_iff, ← (settings_eq_ok_iff.mp hs).held .weeklyCount]
    exact Int.ofNat_le.symm
  lookback s hs hle := by
    have hloads := settings_eq_ok_iff.mp hs
    rw [← hloads.held .weeklyLookback] at hle
    exact Settings.weeklyRoom_le_iff.mpr (hloads.ordered.trans (Int.ofNat_le.mp hle))
  kept s _ := s.length_kept_le
  connections _ := toNat_connections
  unconnected _ := connections_eq_zero_iff

/-- The greatest count for which there is room, and the greatest number of connections. -/
theorem greatest_sizes_fit :
    (∃ text ini s, ofText text = .ok ini ∧ settings ini = .ok s ∧
      s.weeklyCount = 384307168202282325 ∧ s.weeklyRoom ≤ greatestRoom) ∧
    ∃ text ini c, ofText text = .ok ini ∧ storeConfig ini = .ok c ∧
      c.connections.toNat = 4294967295 := by
  obtain ⟨text, ini, s, htext, hs, hcount⟩ :=
    exists_settings_of_count (by decide : 1 ≤ 384307168202282325) (by decide)
  have hfits : Decimal.FitsInt64 4294967295 := by
    unfold Decimal.FitsInt64
    decide
  obtain ⟨text', ini', c, htext', hc, hpool⟩ := exists_storeConfig_of_poolSize hfits
  refine ⟨⟨text, ini, s, htext, hs, hcount, ?_⟩, text', ini', c, htext', hc, ?_⟩
  · have hread : (s.weeklyCount : Int) = IntegerKey.weeklyCount.read ini :=
      (settings_eq_ok_iff.mp hs).held .weeklyCount
    rw [(configured_sizes ini).room s hs, ← hread, hcount]
    decide
  · have hconnections := (configured_sizes ini').connections c hc
    rw [hpool] at hconnections
    omega

/-- A configuration that is accepted, with a count for which there is no room, and whose number of
connections is cut to none. -/
theorem accepted_sizes_do_not_fit :
    ∃ ini s c,
      ofText ("[sqlite]\npath = screen.db\npool_size = 4294967296\n[screen]\n" ++
        "weekly_lookback = 9223372036854775807\nweekly_count = 9223372036854775807\n") = .ok ini ∧
      settings ini = .ok s ∧ greatestRoom < s.weeklyRoom ∧
      storeConfig ini = .ok c ∧ c.connections = 0 := by
  refine ⟨[⟨"screen", "weekly_count", some "9223372036854775807"⟩,
    ⟨"screen", "weekly_lookback", some "9223372036854775807"⟩,
    ⟨"sqlite", "pool_size", some "4294967296"⟩, ⟨"sqlite", "path", some "screen.db"⟩],
    { weeklyLookback := 9223372036854775807, weeklyCount := 9223372036854775807 },
    ⟨"screen.db", 0⟩, ?_, ?_, ?_, ?_, rfl⟩
  · decide +kernel
  · decide +kernel
  · decide +kernel
  · decide +kernel

end Config

end StockScreen
