import Mathlib.Tactic

/-!
# A broadcast over bounded queues

Every value is put into the queue of every subscriber. Nobody waits: a subscriber whose queue is full loses its place, so
nothing more is sent to it, and it comes to the end once it has taken what is left.

* `Channel.Follows sent c` : of the values `sent` since the subscription the queue got a first part without gaps, and all of
  them if the subscriber still has its place;
* `Follows.send`, `Follows.recv` : a channel keeps following;
* `Follows.taken` : so what it took is a first part of what was sent, in the same order.
-/

namespace Broadcast
variable {α : Type}

/-- The queue of one subscriber. `active` says that it still has its place, and `taken` is what it took so far. -/
structure Channel (α : Type) where
  active : Bool
  queue : List α
  taken : List α

namespace Channel

def fresh : Channel α := ⟨true, [], []⟩

/-- Put a value into the queue, or give up the place. -/
def send (capacity : Nat) (x : α) (c : Channel α) : Channel α :=
  if c.active && c.queue.length < capacity then { c with queue := c.queue ++ [x] } else { c with active := false }

def recv (c : Channel α) : Option (α × Channel α) :=
  match c.queue with
  | [] => none
  | x :: queue => some (x, ⟨c.active, queue, c.taken ++ [x]⟩)

def got (c : Channel α) : List α := c.taken ++ c.queue

/-- What the queue got is a first part of what was sent, and all of it while the subscriber has its place. -/
structure Follows (sent : List α) (c : Channel α) : Prop where
  gapless : c.got <+: sent
  complete : c.active = true → c.got = sent

theorem follows_fresh : Follows [] (fresh : Channel α) := ⟨List.prefix_refl [], fun _ => rfl⟩

variable {c c' : Channel α} {x : α} {sent : List α} {capacity : Nat}

theorem Follows.send (h : Follows sent c) (capacity : Nat) (x : α) : Follows (sent ++ [x]) (c.send capacity x) := by
  unfold Channel.send
  split_ifs with hroom
  · rw [Bool.and_eq_true] at hroom
    have hgot : ({ c with queue := c.queue ++ [x] } : Channel α).got = sent ++ [x] := by
      rw [got, ← h.complete hroom.1, got, List.append_assoc]
    exact ⟨hgot ▸ List.prefix_refl _, fun _ => hgot⟩
  · exact ⟨h.gapless.trans (List.prefix_append _ _), nofun⟩

@[simp] theorem taken_send (capacity : Nat) (x : α) (c : Channel α) : (c.send capacity x).taken = c.taken := by
  unfold Channel.send
  split_ifs <;> rfl

theorem send_active (h : (c.send capacity x).active = true) :
    c.active = true ∧ c.queue.length < capacity ∧ (c.send capacity x).queue = c.queue ++ [x] := by
  unfold Channel.send at h ⊢
  split_ifs at h ⊢ with hroom
  · obtain ⟨hact, hlen⟩ := Bool.and_eq_true_iff.1 hroom
    exact ⟨hact, of_decide_eq_true hlen, rfl⟩

theorem send_inactive (h : c.active = false) (capacity : Nat) (x : α) : c.send capacity x = { c with active := false } := by
  simp [send, h]

theorem foldl_send (xs queue taken : List α) (h : queue.length + xs.length ≤ capacity) :
    xs.foldl (fun (c : Channel α) x => c.send capacity x) ⟨true, queue, taken⟩ = ⟨true, queue ++ xs, taken⟩ := by
  induction xs generalizing queue with
  | nil => simp
  | cons x xs ih =>
    rw [List.length_cons] at h
    have hroom : queue.length < capacity := by omega
    have hsend : send capacity x ⟨true, queue, taken⟩ = ⟨true, queue ++ [x], taken⟩ := by simp [send, hroom]
    rw [List.foldl_cons, hsend, ih (queue ++ [x]) (by simpa [Nat.add_assoc, Nat.add_comm 1] using h), List.append_assoc,
      List.singleton_append]

theorem send_full {queue : List α} (taken : List α) (h : capacity ≤ queue.length) (x : α) :
    send capacity x ⟨true, queue, taken⟩ = ⟨false, queue, taken⟩ := by
  simp [send, Nat.not_lt.2 h]

theorem recv_eq_some (h : c.recv = some (x, c')) :
    c'.active = c.active ∧ c.queue = x :: c'.queue ∧ c'.taken = c.taken ++ [x] := by
  unfold recv at h
  split at h
  · cases h
  · rename_i queue hq
    obtain ⟨rfl, rfl⟩ := Prod.mk.inj (Option.some.inj h)
    exact ⟨rfl, hq, rfl⟩

theorem got_recv (h : c.recv = some (x, c')) : c'.got = c.got := by
  obtain ⟨-, hq, htaken⟩ := recv_eq_some h
  rw [got, got, hq, htaken, List.append_assoc, List.singleton_append]

theorem Follows.recv (h : Follows sent c) (hc : c.recv = some (x, c')) : Follows sent c' := by
  obtain ⟨hact, -⟩ := recv_eq_some hc
  refine ⟨?_, fun ha => ?_⟩
  · rw [got_recv hc]
    exact h.gapless
  · rw [got_recv hc]
    exact h.complete (hact ▸ ha)

theorem Follows.taken (h : Follows sent c) : c.taken <+: sent := (List.prefix_append _ _).trans h.gapless

end Channel

end Broadcast
