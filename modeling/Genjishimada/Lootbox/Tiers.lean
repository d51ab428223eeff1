import Genjishimada.Repository.Lootbox
import Mathlib.Data.List.TakeWhile

/-!
# Tiers of XP

Five sub tiers make a main tier and twenty main tiers a prestige level.  A sub tier is a block of
a hundred XP and a main tier one of five hundred, and neighbouring blocks have different names.
-/

namespace Genjishimada.Lootbox

open Library Repository

/-! ## Names -/

/-- A name without a blank is what stands behind the last one. -/
theorem append_blank_inj {l l' r r' : List Char} (hr : ' ' ∉ r) (hr' : ' ' ∉ r')
    (h : l ++ ' ' :: r = l' ++ ' ' :: r') : l = l' ∧ r = r' := by
  have hlast : ∀ {l r : List Char}, ' ' ∉ r →
      (l ++ ' ' :: r).reverse.takeWhile (· ≠ ' ') = r.reverse := by
    intro l r hr
    have hall : ∀ c ∈ r.reverse, decide (c ≠ ' ') = true := by
      intro c hc
      rw [decide_eq_true_eq]
      rintro rfl
      exact hr (List.mem_reverse.mp hc)
    rw [List.reverse_append, List.reverse_cons, List.append_assoc,
      List.takeWhile_append_of_pos hall, List.singleton_append,
      List.takeWhile_cons_of_neg (by simp), List.append_nil]
  have hrr : r.reverse = r'.reverse := by rw [← hlast hr, h, hlast hr']
  obtain rfl := List.reverse_injective hrr
  exact ⟨List.append_cancel_right h, rfl⟩

theorem blank_append_inj {m m' s s' : String} (hs : ' ' ∉ s.toList) (hs' : ' ' ∉ s'.toList)
    (h : m ++ " " ++ s = m' ++ " " ++ s') : m = m' ∧ s = s' := by
  have hchars : m.toList ++ ' ' :: s.toList = m'.toList ++ ' ' :: s'.toList := by
    have := congrArg String.toList h
    simpa [String.toList_append] using this
  obtain ⟨hm, hs⟩ := append_blank_inj hs hs' hchars
  exact ⟨String.toList_injective hm, String.toList_injective hs⟩

theorem mainTier_mem {i : Int} (h0 : 0 ≤ i) (h : i < 20) : i ∈ mainTiers.map Prod.fst := by
  simp only [mainTiers, List.map_cons, List.map_nil, List.mem_cons, List.not_mem_nil]
  omega

theorem subTier_mem {i : Int} (h0 : 0 ≤ i) (h : i < 5) : i ∈ subTiers.map Prod.fst := by
  simp only [subTiers, List.map_cons, List.map_nil, List.mem_cons, List.not_mem_nil]
  omega

theorem mainTiers_nodup : (mainTiers.map Prod.snd).Nodup := by decide

theorem subTiers_nodup : (subTiers.map Prod.snd).Nodup := by decide

theorem blank_notMem_subTiers : ∀ t ∈ subTiers, ' ' ∉ t.2.toList := by decide

/-! ## The current tier -/

section Current

variable {xp : Int}

theorem rawTier_eq (h : 0 ≤ xp) : rawTier xp = xp / 100 := Int.tdiv_eq_ediv_of_nonneg h

theorem normalizedTier_eq (h : 0 ≤ xp) : normalizedTier xp = xp / 100 % 100 := by
  rw [normalizedTier, rawTier_eq h, Int.tmod_eq_emod_of_nonneg (by omega)]

theorem prestigeLevel_eq (h : 0 ≤ xp) : prestigeLevel xp = xp / 100 / 100 := by
  rw [prestigeLevel, rawTier_eq h, Int.tdiv_eq_ediv_of_nonneg (by omega)]

/-- The threshold of the main tier: every five hundred XP, around after twenty. -/
theorem mainThreshold_eq (h : 0 ≤ xp) : (normalizedTier xp).tdiv 5 = xp / 500 % 20 := by
  rw [normalizedTier_eq h, Int.tdiv_eq_ediv_of_nonneg (by omega)]
  omega

/-- The threshold of the sub tier: every hundred XP, around after five. -/
theorem subThreshold_eq (h : 0 ≤ xp) : (rawTier xp).tmod 5 = xp / 100 % 5 := by
  rw [rawTier_eq h, Int.tmod_eq_emod_of_nonneg (by omega)]

theorem currentMainTierName_eq (h : 0 ≤ xp) :
    currentMainTierName xp = joinName mainTiers (xp / 500 % 20) := by
  rw [currentMainTierName, mainThreshold_eq h]

theorem currentSubTierName_eq (h : 0 ≤ xp) :
    currentSubTierName xp = joinName subTiers (xp / 100 % 5) := by
  rw [currentSubTierName, subThreshold_eq h]

theorem currentFullTierName_eq (h : 0 ≤ xp) : currentFullTierName xp =
    fullName (joinName mainTiers (xp / 100 / 5 % 20)) (joinName subTiers (xp / 100 % 5)) := by
  rw [currentFullTierName, currentMainTierName_eq h, currentSubTierName_eq h]
  have hblock : xp / 500 = xp / 100 / 5 := by omega
  rw [hblock]

end Current

/-- The full names of two tiers are the same only for the same two thresholds. -/
theorem fullName_inj {i i' j j' : Int} (hi : 0 ≤ i ∧ i < 20) (hi' : 0 ≤ i' ∧ i' < 20)
    (hj : 0 ≤ j ∧ j < 5) (hj' : 0 ≤ j' ∧ j' < 5) :
    fullName (joinName mainTiers i) (joinName subTiers j) =
      fullName (joinName mainTiers i') (joinName subTiers j') ↔ i = i' ∧ j = j' := by
  constructor
  · intro heq
    obtain ⟨m, hm, -⟩ := exists_joinName (mainTier_mem hi.1 hi.2)
    obtain ⟨m', hm', -⟩ := exists_joinName (mainTier_mem hi'.1 hi'.2)
    obtain ⟨s, hs, hmem⟩ := exists_joinName (subTier_mem hj.1 hj.2)
    obtain ⟨s', hs', hmem'⟩ := exists_joinName (subTier_mem hj'.1 hj'.2)
    rw [hm, hm', hs, hs'] at heq
    obtain ⟨rfl, rfl⟩ := blank_append_inj (blank_notMem_subTiers _ hmem)
      (blank_notMem_subTiers _ hmem') (Option.some.inj heq)
    exact ⟨(joinName_inj mainTiers_nodup (mainTier_mem hi.1 hi.2)
        (mainTier_mem hi'.1 hi'.2)).mp (hm.trans hm'.symm),
      (joinName_inj subTiers_nodup (subTier_mem hj.1 hj.2)
        (subTier_mem hj'.1 hj'.2)).mp (hs.trans hs'.symm)⟩
  · rintro ⟨rfl, rfl⟩
    rfl

/-! ## The next tiers -/

/-- The totals are the next at which the tier is another one, and the names are those of the
current tier there. -/
structure NextTiers (s : XpSummary) : Prop where
  sub_least : IsLeast {total | s.xp < total ∧
    currentFullTierName total ≠ s.currentFullTierName} s.nextSubTierXpTotal
  main_least : IsLeast {total | s.xp < total ∧
    currentMainTierName total ≠ s.currentMainTierName} s.nextMainTierXpTotal
  next_sub : s.nextSubTierName = currentSubTierName s.nextSubTierXpTotal
  next_full : s.nextFullTierName = currentFullTierName s.nextSubTierXpTotal
  next_main : s.nextMainTierName = currentMainTierName s.nextMainTierXpTotal

section Summary

variable {xp : Int} {s : XpSummary}

theorem int4_eq_ok {n m : Int} (h : int4 n = .ok m) : m = n ∧ -2147483648 ≤ n ∧ n ≤ 2147483647 := by
  rw [int4] at h
  split at h
  · rename_i hrange
    exact ⟨(Except.ok.inj h).symm, hrange⟩
  · cases h

theorem int4_of_range {n : Int} (h : -2147483648 ≤ n ∧ n ≤ 2147483647) : int4 n = .ok n := if_pos h

/-- The total of the next main tier, without the detour by the prestige. -/
theorem nextMainTotal_eq (h : 0 ≤ xp) :
    (((normalizedTier xp).tdiv 5 + 1) * 5 + prestigeLevel xp * 100) * 100 =
      (xp / 500 + 1) * 500 := by
  rw [mainThreshold_eq h, prestigeLevel_eq h]
  omega

/-- What the row of an amount says, and that its totals are in range. -/
theorem of_xpSummary (h : xpSummary xp = .ok s) :
    ∃ sub main, int4 ((rawTier xp + 1) * 100) = .ok sub ∧
      int4 ((((normalizedTier xp).tdiv 5 + 1) * 5 + prestigeLevel xp * 100) * 100) = .ok main ∧
      s.xp = xp ∧ s.prestigeLevel = prestigeLevel xp ∧
      s.currentMainTierName = currentMainTierName xp ∧
      s.currentSubTierName = currentSubTierName xp ∧
      s.currentFullTierName = currentFullTierName xp ∧
      s.nextSubTierXpTotal = sub ∧ s.nextMainTierXpTotal = main ∧
      s.nextSubTierName = joinName subTiers ((rawTier xp + 1).tmod 5) ∧
      s.nextMainTierName = joinName mainTiers (((normalizedTier xp).tdiv 5 + 1).tmod 20) ∧
      s.nextFullTierName = (if (rawTier xp).tmod 5 = 4 then
        fullName s.nextMainTierName s.nextSubTierName
        else fullName s.currentMainTierName s.nextSubTierName) := by
  rw [xpSummary] at h
  cases hsub : int4 ((rawTier xp + 1) * 100) with
  | error e => rw [hsub] at h; cases h
  | ok sub =>
      cases hmain : int4 ((((normalizedTier xp).tdiv 5 + 1) * 5 + prestigeLevel xp * 100) * 100) with
      | error e => rw [hsub, hmain] at h; cases h
      | ok main =>
          rw [hsub, hmain] at h
          obtain rfl := Except.ok.inj h
          exact ⟨sub, main, rfl, rfl, rfl, rfl, rfl, rfl, rfl, rfl, rfl, rfl, rfl, rfl⟩

/-- The full tier at the end of the block of a hundred is another one. -/
theorem fullTier_isLeast (h0 : 0 ≤ xp) :
    IsLeast {total | xp < total ∧ currentFullTierName total ≠ currentFullTierName xp}
      ((xp / 100 + 1) * 100) := by
  let g (n : Int) := fullName (joinName mainTiers (n / 5 % 20)) (joinName subTiers (n % 5))
  have hne : g (xp / 100 + 1) ≠ g (xp / 100) := by
    intro heq
    have hsub := ((fullName_inj (by omega) (by omega) (by omega) (by omega)).mp heq).2
    omega
  have hset : {total | xp < total ∧ currentFullTierName total ≠ currentFullTierName xp} =
      {total | xp < total ∧ g (total / 100) ≠ g (xp / 100)} := by
    ext total
    refine and_congr_right fun hlt ↦ ?_
    rw [currentFullTierName_eq h0, currentFullTierName_eq (h0.trans hlt.le)]
  rw [hset]
  exact isLeast_next_block (by omega) hne

/-- The main tier at the end of the block of five hundred is another one. -/
theorem mainTier_isLeast (h0 : 0 ≤ xp) :
    IsLeast {total | xp < total ∧ currentMainTierName total ≠ currentMainTierName xp}
      ((xp / 500 + 1) * 500) := by
  let g (n : Int) := joinName mainTiers (n % 20)
  have hne : g (xp / 500 + 1) ≠ g (xp / 500) := by
    intro heq
    have hmain := (joinName_inj mainTiers_nodup (mainTier_mem (by omega) (by omega))
      (mainTier_mem (by omega) (by omega))).mp heq
    omega
  have hset : {total | xp < total ∧ currentMainTierName total ≠ currentMainTierName xp} =
      {total | xp < total ∧ g (total / 500) ≠ g (xp / 500)} := by
    ext total
    refine and_congr_right fun hlt ↦ ?_
    rw [currentMainTierName_eq h0, currentMainTierName_eq (h0.trans hlt.le)]
  rw [hset]
  exact isLeast_next_block (by omega) hne

theorem nextTiers (h : xpSummary xp = .ok s) (h0 : 0 ≤ xp) : NextTiers s := by
  obtain ⟨sub, main, hsub, hmain, hxp, -, hcurMain, -, hcurFull, hsubTotal, hmainTotal, hnextSub,
    hnextMain, hnextFull⟩ := of_xpSummary h
  have hsubTotal : s.nextSubTierXpTotal = (xp / 100 + 1) * 100 := by
    rw [hsubTotal, (int4_eq_ok hsub).1, rawTier_eq h0]
  have hmainTotal : s.nextMainTierXpTotal = (xp / 500 + 1) * 500 := by
    rw [hmainTotal, (int4_eq_ok hmain).1, nextMainTotal_eq h0]
  have hnextSub : s.nextSubTierName = joinName subTiers ((xp / 100 + 1) % 5) := by
    rw [hnextSub, rawTier_eq h0, Int.tmod_eq_emod_of_nonneg (by omega)]
  have hnextMain : s.nextMainTierName = joinName mainTiers ((xp / 500 + 1) % 20) := by
    rw [hnextMain, mainThreshold_eq h0, Int.tmod_eq_emod_of_nonneg (by omega)]
    congr 1
    omega
  have hsubBlock : (xp / 100 + 1) * 100 / 100 = xp / 100 + 1 := by omega
  have hmainBlock : (xp / 500 + 1) * 500 / 500 = xp / 500 + 1 := by omega
  constructor
  · rw [hxp, hcurFull, hsubTotal]
    exact fullTier_isLeast h0
  · rw [hxp, hcurMain, hmainTotal]
    exact mainTier_isLeast h0
  · rw [hsubTotal, hnextSub, currentSubTierName_eq (by omega), hsubBlock]
  · rw [hsubTotal, hnextFull, currentFullTierName_eq (by omega), hsubBlock, hnextSub,
      subThreshold_eq h0, hnextMain, hcurMain, currentMainTierName_eq h0]
    -- the main tier is the next one after the last sub tier, and the same one before it
    split
    · have hmainNext : (xp / 500 + 1) % 20 = (xp / 100 + 1) / 5 % 20 := by omega
      rw [hmainNext]
    · have hmainSame : xp / 500 % 20 = (xp / 100 + 1) / 5 % 20 := by omega
      rw [hmainSame]
  · rw [hmainTotal, hnextMain, currentMainTierName_eq (by omega), hmainBlock]

/-- The row exists as long as the total of the next main tier is an `integer`. -/
theorem exists_xpSummary (h0 : 0 ≤ xp) : (∃ s, xpSummary xp = .ok s) ↔ xp ≤ 2147483499 := by
  constructor
  · rintro ⟨s, hs⟩
    obtain ⟨sub, main, -, hmain, -⟩ := of_xpSummary hs
    have hrange := (int4_eq_ok hmain).2
    rw [nextMainTotal_eq h0] at hrange
    omega
  · intro hle
    have hsub : int4 ((rawTier xp + 1) * 100) = .ok ((rawTier xp + 1) * 100) := by
      apply int4_of_range
      rw [rawTier_eq h0]
      omega
    have hmain := int4_of_range (n := (((normalizedTier xp).tdiv 5 + 1) * 5 +
      prestigeLevel xp * 100) * 100) (by rw [nextMainTotal_eq h0]; omega)
    rw [xpSummary, hsub, hmain]
    exact ⟨_, rfl⟩

end Summary

/-! ## Changes -/

/-- The change reports a rank or a prestige. -/
def Reports (c : XpTierChange) : Prop := c.rankChangeType ≠ none ∨ c.prestigeChange = true

section Change

variable {xp oldXp newXp : Int}

/-- A debt of less than a hundred counts as nothing. -/
theorem rawTier_debt (h : -100 < xp) (h0 : xp < 0) : rawTier xp = rawTier 0 := by
  rw [rawTier, rawTier, Int.zero_tdiv, ← neg_neg xp, Int.neg_tdiv,
    Int.tdiv_eq_ediv_of_nonneg (by omega)]
  omega

/-- Above a debt of a hundred every amount has a tier. -/
theorem exists_names (h : -100 < xp) : ∃ main sub, currentMainTierName xp = some main ∧
    currentSubTierName xp = some sub ∧ ' ' ∉ sub.toList := by
  obtain ⟨n, h0, hn⟩ : ∃ n, 0 ≤ n ∧ rawTier xp = rawTier n := by
    rcases lt_or_ge xp 0 with hneg | h0
    · exact ⟨0, le_rfl, rawTier_debt h hneg⟩
    · exact ⟨xp, h0, rfl⟩
  have hmain : currentMainTierName xp = currentMainTierName n := by
    rw [currentMainTierName, normalizedTier, hn, ← normalizedTier, ← currentMainTierName]
  have hsub : currentSubTierName xp = currentSubTierName n := by
    rw [currentSubTierName, hn, ← currentSubTierName]
  obtain ⟨main, hm, -⟩ :=
    exists_joinName (mainTier_mem (i := n / 500 % 20) (by omega) (by omega))
  obtain ⟨sub, hs, hmem⟩ := exists_joinName (subTier_mem (i := n / 100 % 5) (by omega) (by omega))
  exact ⟨main, sub, by rw [hmain, currentMainTierName_eq h0, hm],
    by rw [hsub, currentSubTierName_eq h0, hs], blank_notMem_subTiers _ hmem⟩

/-- The change between two amounts with a main tier. -/
theorem fetchXpTierChange_eq {main main' : String} (hold : int4 oldXp = .ok oldXp)
    (hnew : int4 newXp = .ok newXp) (hmain : currentMainTierName oldXp = some main)
    (hmain' : currentMainTierName newXp = some main') :
    fetchXpTierChange oldXp newXp = .ok (some (tierChangeRow oldXp newXp main main')) := by
  rw [fetchXpTierChange, hold, hnew]
  refine congrArg Except.ok ?_
  rw [hmain, Option.bind_some, hmain', Option.map_some]

/-- A change is reported exactly if the full tier or the prestige is another one, however far
apart the amounts are. -/
theorem exists_change (hold : -100 < oldXp) (hnew : -100 < newXp) (hold' : oldXp ≤ 2147483647)
    (hnew' : newXp ≤ 2147483647) : ∃ c, fetchXpTierChange oldXp newXp = .ok (some c) ∧
      (Reports c ↔ currentFullTierName oldXp ≠ currentFullTierName newXp ∨
        prestigeLevel oldXp ≠ prestigeLevel newXp) := by
  obtain ⟨main, sub, hmain, hsub, hblank⟩ := exists_names hold
  obtain ⟨main', sub', hmain', hsub', hblank'⟩ := exists_names hnew
  refine ⟨_, fetchXpTierChange_eq (int4_of_range (by omega)) (int4_of_range (by omega)) hmain hmain',
    ?_⟩
  have hfull : currentFullTierName oldXp ≠ currentFullTierName newXp ↔
      main ≠ main' ∨ sub ≠ sub' := by
    rw [currentFullTierName, currentFullTierName, hmain, hmain', hsub, hsub', ← not_and_or, ne_eq,
      not_iff_not]
    constructor
    · intro heq
      exact blank_append_inj hblank hblank' (Option.some.inj heq)
    · rintro ⟨rfl, rfl⟩
      rfl
  rw [hfull, Reports, tierChangeRow, decide_eq_true_eq]
  refine or_congr ?_ Iff.rfl
  have hne : sqlNe (currentSubTierName oldXp) (currentSubTierName newXp) = true ↔ sub ≠ sub' := by
    rw [hsub, hsub', sqlNe, Option.any_some, Option.any_some, decide_eq_true_eq]
  by_cases hm : main = main'
  · by_cases hs : sub = sub' <;> simp [hm, hs, hne]
  · simp [hm]

end Change

/-! ## The whole -/

/-- The summary of an amount that is not negative names the next tiers, as long as their totals are
`integer`s, and the change between two amounts, neither in debt by a tier, is reported. -/
structure XpTiersSound : Prop where
  defined : ∀ users db userId, userId ∈ users → 0 ≤ userXp db userId →
    ((∃ s, fetchUserXpSummary users db userId = .ok (some s)) ↔ userXp db userId ≤ 2147483499)
  next : ∀ users db userId s, fetchUserXpSummary users db userId = .ok (some s) → 0 ≤ s.xp →
    NextTiers s
  reported : ∀ users db userId s, fetchUserXpSummary users db userId = .ok (some s) →
    s.currentMainTierName = currentMainTierName s.xp ∧
    s.currentSubTierName = currentSubTierName s.xp ∧
    s.currentFullTierName = currentFullTierName s.xp ∧ s.prestigeLevel = prestigeLevel s.xp
  changes : ∀ oldXp newXp, -100 < oldXp → -100 < newXp → oldXp ≤ 2147483647 →
    newXp ≤ 2147483647 → ∃ c, fetchXpTierChange oldXp newXp = .ok (some c) ∧
      (Reports c ↔ currentFullTierName oldXp ≠ currentFullTierName newXp ∨
        prestigeLevel oldXp ≠ prestigeLevel newXp)

/-- The row is that of the user's amount. -/
theorem of_fetchUserXpSummary {users : List Nat} {db : Db} {userId : Nat} {s : XpSummary}
    (h : fetchUserXpSummary users db userId = .ok (some s)) :
    xpSummary (userXp db userId) = .ok s := by
  rw [fetchUserXpSummary] at h
  split at h
  · cases hrow : xpSummary (userXp db userId) with
    | error e => rw [hrow] at h; cases h
    | ok s' =>
        rw [hrow] at h
        rw [Option.some.inj (Except.ok.inj h)]
  · cases h

theorem xp_tiers_sound : XpTiersSound where
  defined users db userId hmem h0 := by
    rw [← exists_xpSummary h0]
    refine exists_congr fun s ↦ ⟨of_fetchUserXpSummary, fun hs ↦ ?_⟩
    rw [fetchUserXpSummary, if_pos hmem, hs]
    rfl
  next users db userId s h h0 := by
    have hs := of_fetchUserXpSummary h
    obtain ⟨-, -, -, -, hxp, -⟩ := of_xpSummary hs
    exact nextTiers hs (hxp ▸ h0)
  reported users db userId s h := by
    have hs := of_fetchUserXpSummary h
    obtain ⟨-, -, -, -, hxp, hprestige, hmain, hsub, hfull, -⟩ := of_xpSummary hs
    rw [hxp]
    exact ⟨hmain, hsub, hfull, hprestige⟩
  changes oldXp newXp := exists_change

/-- The summary raises near the largest `integer`, and a fall into debt by six tiers is not
reported, though it leaves the user without a tier. -/
theorem summary_raises_change_lost :
    (∃ db, userXp db 7 = 2147483600 ∧
      fetchUserXpSummary [7] db 7 = .error .integerOutOfRange) ∧
    (∃ s s', xpSummary 0 = .ok s ∧ xpSummary (-600) = .ok s' ∧
      s.currentFullTierName = some "Newcomer I" ∧ s'.currentFullTierName = none ∧
      fetchXpTierChange 0 (-600) = .ok none) := by
  refine ⟨⟨{ xp := Table.empty.upsert { userId := 7, amount := 2147483600 } id }, rfl, rfl⟩, ?_⟩
  exact ⟨_, _, rfl, rfl, rfl, rfl, rfl⟩

end Genjishimada.Lootbox
