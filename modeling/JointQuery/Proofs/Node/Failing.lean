import JointQuery.Proofs.Node.Outlook
import JointQuery.Proofs.Node.Waking

/-! What becomes of a session of which a sender has failed. Whoever waits for the senders is told of
each that ends and is run; at the first failure that it finds it ends the session, and the client is
told why. -/
namespace JointQuery.Node

variable {node after : Node} {place : Nat} {party : Party} {flight : Flight} {exempt : Set TaskId}

/-! ## Those who wait -/

/-- Whoever waits for the senders of a session knows of each that has failed and can run, unless the
session has ended. It ceases to wait when the session has ended or all have sent their message. -/
structure Watched (node : Node) (place : Nat) : Prop where
  ceased : node.fanOut place = .over →
    node.Ended place ∨ ∀ party, (node.sender place party).isSent = true
  failed : ∀ party cause, node.sender place party = .ended (.error cause) → node.Ended place ∨
    .fanOut place ∈ node.agenda.ready ∧
      ∃ ended, node.fanOut place = .joining ended ∧ party ∈ ended
  cancelled : ∀ party id, node.sender place party = .ended (.error (.cancelled id)) →
    node.Ended place

private theorem watched_of_unstarted (unstarted : ∀ party, node.sender place party = .unstarted)
    (waits : node.fanOut place ≠ .over) : node.Watched place :=
  ⟨fun ceased => absurd ceased waits, fun party cause failed => by simp [unstarted party] at failed,
    fun party id cancelled => by simp [unstarted party] at cancelled⟩

private theorem unstarted_of_unbegun (dispatches : node.Dispatches)
    (unbegun : node.fanOut place = .unstarted ∨ node.fanOut place = .starting) (party : Party) :
    node.sender place party = .unstarted := by
  cases held : node.flights[place]? with
  | none => simp [sender, held]
  | some flight =>
    rw [fanOut_of_flight held] at unbegun
    rw [sender_of_flight held]
    exact (dispatches.flights place flight held).unbegun unbegun party

namespace Watched

/-- As long as the session and its senders stay as they are, whoever waits for them goes on to. -/
theorem of_same (watched : node.Watched place) (ended : node.Ended place → after.Ended place)
    (senders : ∀ party, after.sender place party = node.sender place party)
    (fanOut : after.fanOut place = node.fanOut place)
    (ready : .fanOut place ∈ node.agenda.ready → .fanOut place ∈ after.agenda.ready) :
    after.Watched place where
  ceased ceased := by
    simp only [senders]
    exact (watched.ceased (fanOut ▸ ceased)).imp_left ended
  failed party cause failed := by
    rw [fanOut]
    exact (watched.failed party cause (senders party ▸ failed)).imp ended fun ⟨runs, knows⟩ =>
      ⟨ready runs, knows⟩
  cancelled party id cancelled := ended (watched.cancelled party id (senders party ▸ cancelled))

private theorem steady (watched : node.Watched place) (ended : node.Ended place → after.Ended place)
    (dispatches : after.Dispatches) (steady : node.Steady exempt after)
    (senders : ∀ party, .sender place party ∉ exempt) (waits : .fanOut place ∉ exempt) :
    after.Watched place := by
  rcases steady.fanOuts place waits senders with same | starting
  · exact watched.of_same ended (fun party => steady.senders place party (senders party)) same
      fun ready => steady.agenda.ready _ ready waits
  · exact watched_of_unstarted (unstarted_of_unbegun dispatches (.inr starting)) (by simp [starting])

end Watched

/-! ## Ends of senders -/

end JointQuery.Node
