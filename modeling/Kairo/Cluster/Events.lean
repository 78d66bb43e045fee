import Kairo.Cluster.Member
import Mathlib.Data.List.Induction

/-!
# Member events

The lifecycle events a cluster publishes, and the member snapshot they add up to.
-/

namespace Kairo.Cluster

open List

inductive MemberEvent
  | joined (member : Member)
  | weaklyUp (member : Member)
  | up (member : Member)
  | left (member : Member)
  | exited (member : Member)
  | downed (member : Member)
  | removed (member : Member) (previousStatus : MemberStatus)
  deriving DecidableEq, Repr

namespace MemberEvent

def member : MemberEvent → Member
  | joined m | weaklyUp m | up m | left m | exited m | downed m | removed m _ => m

def node (e : MemberEvent) : UniqueAddress := e.member.uniqueAddress

def isRemoved : MemberEvent → Bool
  | removed _ _ => true
  | _ => false

/-- The member snapshot after one more event. -/
def applyTo (ms : List Member) (e : MemberEvent) : List Member :=
  let others := ms.filter (·.uniqueAddress ≠ e.node)
  if e.isRemoved then others else others ++ [e.member]

/-- The member snapshot after a sequence of events. -/
def snapshot (es : List MemberEvent) : List Member := es.foldl applyTo []

lemma mem_applyTo {ms : List Member} {e : MemberEvent} {m : Member} :
    m ∈ applyTo ms e ↔
      m ∈ ms ∧ m.uniqueAddress ≠ e.node ∨ e.isRemoved = false ∧ m = e.member := by
  unfold applyTo
  cases h : e.isRemoved <;> simp

lemma snapshot_append (es : List MemberEvent) (e : MemberEvent) :
    snapshot (es ++ [e]) = applyTo (snapshot es) e := by
  simp [snapshot]

lemma exists_of_mem_snapshot {es : List MemberEvent} {m : Member} (h : m ∈ snapshot es) :
    ∃ e ∈ es, e.member = m := by
  induction es using reverseRecOn with
  | nil => simp [snapshot] at h
  | append_singleton es e ih =>
    rw [snapshot_append, mem_applyTo] at h
    rcases h with ⟨h, -⟩ | ⟨-, rfl⟩
    · obtain ⟨e', he', rfl⟩ := ih h
      exact ⟨e', by simp [he'], rfl⟩
    · exact ⟨e, by simp, rfl⟩

lemma removed_or_aged_of_mem {es : List MemberEvent}
    (kept : es.Pairwise fun e e' =>
      e.node = e'.node → e.member.upNumber.isSome → e'.member.upNumber.isSome)
    {e : MemberEvent} (he : e ∈ es) (haged : e.member.upNumber.isSome) :
    (∃ e' ∈ es, e'.isRemoved = true ∧ e'.node = e.node) ∨
      ∃ m ∈ snapshot es, m.uniqueAddress = e.node ∧ m.upNumber.isSome := by
  induction es using reverseRecOn with
  | nil => cases he
  | append_singleton es last ih =>
    rw [pairwise_append] at kept
    by_cases hn : last.node = e.node
    · -- the last event decides
      cases hr : last.isRemoved with
      | true => exact .inl ⟨last, by simp, hr, hn⟩
      | false =>
        refine .inr ⟨last.member, ?_, hn, ?_⟩
        · rw [snapshot_append, mem_applyTo]
          exact .inr ⟨hr, rfl⟩
        · rcases mem_append.mp he with he | he
          · exact kept.2.2 e he last (by simp) hn.symm haged
          · rw [← mem_singleton.mp he]; exact haged
    · have he' : e ∈ es := by
        rcases mem_append.mp he with he | he
        · exact he
        · exact absurd (by rw [mem_singleton.mp he]) hn
      rcases ih kept.1 he' with ⟨e', h, hr, hne⟩ | ⟨m, hm, hma, hage⟩
      · exact .inl ⟨e', by simp [h], hr, hne⟩
      · refine .inr ⟨m, ?_, hma, hage⟩
        rw [snapshot_append, mem_applyTo]
        exact .inl ⟨hm, by rw [hma]; exact Ne.symm hn⟩

end MemberEvent

end Kairo.Cluster
