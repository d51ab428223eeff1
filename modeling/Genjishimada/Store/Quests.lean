import Genjishimada.Services.Store

/-!
# Each quest on its own

An update of the quests first provisions the user and then goes through the quests of the
current rotation.  What becomes of one of them depends on nothing but that quest and the
event.
-/

namespace Genjishimada.Store

open Library Sdk Repository Services

variable {ε : Type}

/-! ## What becomes of one quest -/

section Counted

variable {r : QuestRequirements} {p : QuestProgress} {e : CompletionEventData} {maps : List Nat}

end Counted

/-! ## The rows of the quests -/

/-- The quests have stayed, and those that are new have the progress they start from. -/
structure Seeds (db db' : Db) : Prop where
  only : OnlyQuests db db'
  rotation : db'.currentRotationId = db.currentRotationId
  kept : ∀ q ∈ db.questProgress.rows, q ∈ db'.questProgress.rows
  seeded : ∀ q ∈ db'.questProgress.rows,
    q ∈ db.questProgress.rows ∨ q.progress = initialProgress q.requirements

namespace Seeds

theorem refl (db : Db) : Seeds db db where
  only := .refl db
  rotation := rfl
  kept := fun _ hq ↦ hq
  seeded := fun _ hq ↦ .inl hq

theorem trans {a b c : Db} (h : Seeds a b) (h' : Seeds b c) : Seeds a c where
  only := h.only.trans h'.only
  rotation := h'.rotation.trans h.rotation
  kept := fun q hq ↦ h'.kept q (h.kept q hq)
  seeded := by
    intro q hq
    rcases h'.seeded q hq with hq | hq
    · exact h.seeded q hq
    · exact .inr hq

end Seeds

/-- Nothing has changed but the quests. -/
def OnlyProgress (db db' : Db) : Prop :=
  ∃ questProgress, db' = { db with questProgress := questProgress }

theorem OnlyProgress.refl (db : Db) : OnlyProgress db db := ⟨_, rfl⟩

theorem OnlyProgress.trans {a b c : Db} (h : OnlyProgress a b) (h' : OnlyProgress b c) :
    OnlyProgress a c := by
  obtain ⟨_, rfl⟩ := h
  obtain ⟨_, rfl⟩ := h'
  exact ⟨_, rfl⟩

/-- The quest is one of the user's of the current rotation. -/
def Current (db : Db) (userId : Nat) (q : UserQuestProgress) : Prop :=
  q.userId = userId ∧ some q.rotationId = db.currentRotationId

instance (db : Db) (userId : Nat) (q : UserQuestProgress) : Decidable (Current db userId q) :=
  inferInstanceAs (Decidable (_ ∧ _))

/-- `g` has been applied to the user's quests of the current rotation. -/
structure Applied (userId : Nat) (g : UserQuestProgress → UserQuestProgress) (db db' : Db) :
    Prop where
  only : OnlyProgress db db'
  get? : ∀ k, db'.questProgress.get? k = (db.questProgress.get? k).map fun q ↦
    if Current db userId q then g q else q

end Genjishimada.Store
