import OmaChat.Lib.Run
import OmaChat.Server.Session

/-!
# The rate limit of a session

The token bucket of `session.rs` over a whole sequence of calls. A call reads the clock once to see how long ago the bucket was
refilled, and once more if it refills it: the milliseconds are truncated, so are the tokens, and what is truncated is lost.

* `TokenBucket.Takes` : a call of `take` on given readings of the clock; `takes_iff` says what it returns and leaves;
* `Timed` : the readings of a clock that does not go back;
* `TokenBucket.worth` : the tokens of a bucket and those that may still come in until a given instant. A call that is granted
  costs one of them (`worth_take`), and nothing adds to them;
* `session_rate_limit` : so within a window of time at most the capacity, the tokens of the window and one more are granted.
-/

namespace OmaChat.Server
open Wire Effects Proto Transition

/-! ## Calls of a bucket -/

/-- A call of `take`: the two readings of the clock, in nanoseconds, and whether it is granted. -/
structure Take where
  now : Nat
  refilled : Nat
  granted : Bool
  deriving DecidableEq

/-- The clock answers with one instant after the other. -/
inductive Clock : (call : SessionCall) → List Nat → call.Answer → List Nat → Prop where
  | instant (now : Nat) (rest : List Nat) : Clock .instant (now :: rest) now rest

/-- The call of `take` leaves the bucket `next`. -/
def TokenBucket.Takes (bucket : TokenBucket) (call : Take) (next : TokenBucket) : Prop :=
  ∃ report c, bucket.take.Exec Clock (report, [call.now, call.refilled]) (.ok (call.granted, next)) c

def Timed : Nat → List Take → Prop
  | _, [] => True
  | since, call :: calls => since ≤ call.now ∧ call.now ≤ call.refilled ∧ Timed call.refilled calls

def lastReading (since : Nat) (calls : List Take) : Nat := calls.foldl (fun _ call => call.refilled) since

/-- The call is granted in the time from one instant to another. -/
def Take.grantedIn (start stop : Nat) (call : Take) : Bool :=
  decide (start ≤ call.now) && decide (call.now ≤ stop) && call.granted

/-! ## One call -/

section
variable {bucket next : TokenBucket} {call : Take}
theorem takes_iff : bucket.Takes call next ↔ (call.granted, next) =
    if 0 < bucket.refill call.now then
      { bucket with tokens := bucket.topUp (bucket.refill call.now), refilled := call.refilled }.spend
    else bucket.spend := by
  constructor
  · rintro ⟨report, c, h⟩
    obtain ⟨_, _, ⟨⟩, h⟩ := Method.exec_request_bind.1 h
    dsimp only at h
    split_ifs at h ⊢
    · obtain ⟨_, _, ⟨⟩, h⟩ := Method.exec_request_bind.1 h
      exact Except.ok.inj (Method.exec_pure.1 h).1
    · exact Except.ok.inj (Method.exec_pure.1 h).1
  · intro h
    refine ⟨{}, ({}, if 0 < bucket.refill call.now then [] else [call.refilled]), ?_⟩
    refine Method.exec_request_bind.2 ⟨call.now, [call.refilled], .instant _ _, ?_⟩
    dsimp only
    split_ifs at h ⊢
    · exact Method.exec_request_bind.2 ⟨call.refilled, [], .instant _ _, Method.exec_pure.2 ⟨congrArg _ h, rfl⟩⟩
    · exact Method.exec_pure.2 ⟨congrArg _ h, rfl⟩

theorem toNat_topUp (refill : Nat) :
    (bucket.topUp refill).toNat = min (clampU32 (bucket.tokens.toNat + clampU32 refill)) bucket.capacity.toNat := by
  have hlt := bucket.capacity.toNat_lt
  unfold TokenBucket.topUp
  rw [UInt32.toNat_ofNat', Nat.mod_eq_of_lt]
  omega

theorem toNat_spend (bucket : TokenBucket) :
    bucket.spend.2.tokens.toNat + bucket.spend.1.toNat = bucket.tokens.toNat ∧ bucket.spend.2.capacity = bucket.capacity ∧
      bucket.spend.2.perSecond = bucket.perSecond ∧ bucket.spend.2.refilled = bucket.refilled ∧
      (bucket.spend.1 = true ↔ 0 < bucket.tokens.toNat) := by
  unfold TokenBucket.spend
  by_cases hzero : bucket.tokens = 0
  · rw [if_pos hzero, hzero]
    simp
  · have hpos : 0 < bucket.tokens.toNat := by
      rw [Nat.pos_iff_ne_zero, ne_eq, ← UInt32.toNat_zero, UInt32.toNat_inj]
      exact hzero
    have hone : (1 : UInt32) ≤ bucket.tokens := UInt32.le_iff_toNat_le.2 hpos
    rw [if_neg hzero]
    dsimp only
    rw [UInt32.toNat_sub_of_le _ _ hone]
    refine ⟨?_, rfl, rfl, rfl, by simpa using hpos⟩
    show bucket.tokens.toNat - 1 + 1 = _
    omega

/-- **A call** finds no token that came in, or it refills the bucket up to its capacity. -/
theorem take_cases (h : bucket.Takes call next) : next.capacity = bucket.capacity ∧ next.perSecond = bucket.perSecond ∧
      (bucket.refill call.now = 0 ∧ next.refilled = bucket.refilled ∧
          next.tokens.toNat + call.granted.toNat = bucket.tokens.toNat ∨
        0 < bucket.refill call.now ∧ next.refilled = call.refilled ∧
          next.tokens.toNat + call.granted.toNat ≤
            min (bucket.tokens.toNat + bucket.refill call.now) bucket.capacity.toNat ∧
          (0 < bucket.capacity.toNat → call.granted = true)) := by
  have h := takes_iff.1 h
  by_cases hrefill : 0 < bucket.refill call.now
  · rw [if_pos hrefill] at h
    obtain ⟨htok, hcap, hrate, hfill, hgranted⟩ :=
      toNat_spend { bucket with tokens := bucket.topUp (bucket.refill call.now), refilled := call.refilled }
    rw [← h, toNat_topUp] at htok hgranted
    rw [← h] at hcap hrate hfill
    refine ⟨hcap, hrate, .inr ⟨hrefill, hfill, ?_, fun hpos => hgranted.2 ?_⟩⟩
    · rw [htok]
      unfold clampU32
      omega
    · unfold clampU32
      omega
  · rw [if_neg hrefill] at h
    obtain ⟨htok, hcap, hrate, hfill, -⟩ := toNat_spend bucket
    rw [← h] at htok hcap hrate hfill
    exact ⟨hcap, hrate, .inl ⟨Nat.eq_zero_of_not_pos hrefill, hfill, htok⟩⟩

theorem tokens_take_le (h : bucket.Takes call next) (htok : bucket.tokens.toNat ≤ bucket.capacity.toNat) :
    next.tokens.toNat ≤ next.capacity.toNat := by
  obtain ⟨hcap, -, hcases⟩ := take_cases h
  rw [hcap]
  rcases hcases with ⟨-, -, htok'⟩ | ⟨-, -, htok', -⟩ <;> omega

end

/-! ## Windows of time -/

/-- The tokens of a bucket, and those that may still come in until an instant. -/
def TokenBucket.worth (bucket : TokenBucket) (stop : Nat) : Nat := bucket.tokens.toNat + bucket.refill stop

theorem refill_add_le {rate start now next stop : Nat} (hst : start ≤ now) (hnow : now ≤ next) (hstop : now ≤ stop) :
    (now - start) / 1000000 * rate / 1000 + (stop - next) / 1000000 * rate / 1000 ≤
      (stop - start) / 1000000 * rate / 1000 := by
  have hmillis : (now - start) / 1000000 + (stop - next) / 1000000 ≤ (stop - start) / 1000000 := by omega
  calc (now - start) / 1000000 * rate / 1000 + (stop - next) / 1000000 * rate / 1000
      ≤ ((now - start) / 1000000 * rate + (stop - next) / 1000000 * rate) / 1000 := Nat.div_add_div_le_add_div
    _ = ((now - start) / 1000000 + (stop - next) / 1000000) * rate / 1000 := by rw [Nat.add_mul]
    _ ≤ (stop - start) / 1000000 * rate / 1000 := Nat.div_le_div_right (Nat.mul_le_mul_right rate hmillis)

section Window
variable {bucket next last : TokenBucket} {call : Take} {calls : List Take} {since start stop : Nat}

theorem count_le_toNat (start stop : Nat) (call : Take) :
    (if call.grantedIn start stop then 1 else 0) ≤ call.granted.toNat := by
  unfold Take.grantedIn
  cases call.granted with
  | false => simp
  | true => split_ifs <;> simp

theorem not_grantedIn_of_late (h : stop < call.now) : call.grantedIn start stop = false := by simp [Take.grantedIn, h]

theorem worth_take (h : bucket.Takes call next) (hsince : bucket.refilled ≤ call.now) (hcall : call.now ≤ call.refilled)
    (hstop : call.now ≤ stop) : next.worth stop + call.granted.toNat ≤ bucket.worth stop := by
  obtain ⟨-, hrate, hcases⟩ := take_cases h
  unfold TokenBucket.worth TokenBucket.refill
  rw [hrate]
  rcases hcases with ⟨-, hfill, htok⟩ | ⟨-, hfill, htok, -⟩
  · rw [hfill]
    omega
  · have hadd := @refill_add_le bucket.perSecond.toNat _ _ _ _ hsince hcall hstop
    rw [hfill]
    unfold TokenBucket.refill at htok
    omega

theorem refilled_take_le (h : bucket.Takes call next) (hsince : bucket.refilled ≤ call.now)
    (hcall : call.now ≤ call.refilled) :
    next.refilled ≤ call.refilled := by
  obtain ⟨-, -, ⟨-, hfill, -⟩ | ⟨-, hfill, -⟩⟩ := take_cases h <;> omega

theorem granted_of_late (htimed : Timed since calls) (hlate : stop < since) : calls.countP (Take.grantedIn start stop) = 0 := by
  induction calls generalizing since with
  | nil => rfl
  | cons call calls ih =>
    obtain ⟨hsince, hcall, htimed⟩ := htimed
    rw [List.countP_cons, ih htimed (by omega), not_grantedIn_of_late (by omega)]
    rfl

theorem granted_le_worth (h : Run TokenBucket.Takes bucket calls last) (htimed : Timed since calls)
    (hsince : bucket.refilled ≤ since) : calls.countP (Take.grantedIn start stop) ≤ bucket.worth stop := by
  induction h generalizing since with
  | nil => exact Nat.zero_le _
  | @cons bucket next last call calls htake _ ih =>
    obtain ⟨hnow, hcall, htimed⟩ := htimed
    have hbase : bucket.refilled ≤ call.now := by omega
    rw [List.countP_cons]
    by_cases hstop : call.now ≤ stop
    · have hworth := worth_take htake hbase hcall hstop
      have hrest := ih htimed (refilled_take_le htake hbase hcall)
      have hcnt := count_le_toNat start stop call
      omega
    · rw [granted_of_late htimed (by omega), not_grantedIn_of_late (by omega)]
      exact Nat.zero_le _

/-- From the first call in a window on, the bucket is worth its capacity, the tokens of the window, and one that began to come
in before. -/
theorem worth_of_first (h : bucket.Takes call next) (hsince : bucket.refilled ≤ call.now) (hcall : call.now ≤ call.refilled)
    (hst : start ≤ call.now) (htok : bucket.tokens.toNat ≤ bucket.capacity.toNat) (millis : Nat) :
    call.granted.toNat + next.worth (start + millis * 1000000) ≤
      bucket.capacity.toNat + 1 + millis * bucket.perSecond.toNat / 1000 := by
  obtain ⟨-, hrate, hcases⟩ := take_cases h
  unfold TokenBucket.worth TokenBucket.refill
  rw [hrate]
  rcases hcases with ⟨hnone, hfill, hspent⟩ | ⟨-, hfill, hspent, -⟩
  · -- less than one token had come in before the window
    rw [hfill]
    unfold TokenBucket.refill at hnone
    have hmillis :
      (start + millis * 1000000 - bucket.refilled) / 1000000 ≤ (call.now - bucket.refilled) / 1000000 + millis := by
      omega
    have hless : (call.now - bucket.refilled) / 1000000 * bucket.perSecond.toNat < 1000 := by omega
    have htot := Nat.mul_le_mul_right bucket.perSecond.toNat hmillis
    rw [Nat.add_mul] at htot
    omega
  · have hmillis : (start + millis * 1000000 - call.refilled) / 1000000 ≤ millis := by omega
    have htot := Nat.mul_le_mul_right bucket.perSecond.toNat hmillis
    rw [hfill]
    omega

/-- **A window of time.** -/
theorem granted_le (h : Run TokenBucket.Takes bucket calls last) (htimed : Timed since calls) (hsince : bucket.refilled ≤ since)
    (htok : bucket.tokens.toNat ≤ bucket.capacity.toNat) (start millis : Nat) :
    calls.countP (Take.grantedIn start (start + millis * 1000000)) ≤
      bucket.capacity.toNat + 1 + millis * bucket.perSecond.toNat / 1000 := by
  induction h generalizing since with
  | nil => exact Nat.zero_le _
  | @cons bucket next last call calls htake hrun ih =>
    obtain ⟨hnow, hcall, htimed⟩ := htimed
    have hbase : bucket.refilled ≤ call.now := by omega
    have hnext := refilled_take_le htake hbase hcall
    obtain ⟨hcap, hrate, -⟩ := take_cases htake
    rw [List.countP_cons]
    by_cases hst : start ≤ call.now
    · have hworth := worth_of_first htake hbase hcall hst htok millis
      have hrest := @granted_le_worth _ _ _ _ start (start + millis * 1000000) hrun htimed hnext
      have hcnt := count_le_toNat start (start + millis * 1000000) call
      omega
    · have hearly : call.grantedIn start (start + millis * 1000000) = false := by simp [Take.grantedIn, hst]
      rw [hearly, if_neg Bool.false_ne_true, Nat.add_zero, ← hcap, ← hrate]
      exact ih htimed hnext (tokens_take_le htake htok)

/-- What holds of the bucket after each of its calls. -/
structure Kept (bucket next : TokenBucket) (last : Nat) : Prop where
  capacity : next.capacity = bucket.capacity
  perSecond : next.perSecond = bucket.perSecond
  tokens : next.tokens.toNat ≤ next.capacity.toNat
  refilled : next.refilled ≤ last

theorem kept_after (h : Run TokenBucket.Takes bucket calls last) (htimed : Timed since calls)
    (htok : bucket.tokens.toNat ≤ bucket.capacity.toNat) (hsince : bucket.refilled ≤ since) :
    Kept bucket last (lastReading since calls) := by
  induction h generalizing since with
  | nil => exact ⟨rfl, rfl, htok, hsince⟩
  | cons htake _ ih =>
    obtain ⟨hnow, hcall, htimed⟩ := htimed
    obtain ⟨hcap, hrate, -⟩ := take_cases htake
    have hkept := ih htimed (tokens_take_le htake htok) (refilled_take_le htake (Nat.le_trans hsince hnow) hcall)
    exact ⟨hkept.capacity.trans hcap, hkept.perSecond.trans hrate, hkept.tokens, hkept.refilled⟩

theorem granted_of_pause (h : bucket.Takes call next) (hcap : 0 < bucket.capacity.toNat) (hrate : 0 < bucket.perSecond.toNat)
    (hpause : bucket.refilled + (1000 + bucket.perSecond.toNat - 1) / bucket.perSecond.toNat * 1000000 ≤ call.now) :
    call.granted = true := by
  have hmillis : (1000 + bucket.perSecond.toNat - 1) / bucket.perSecond.toNat ≤ (call.now - bucket.refilled) / 1000000 := by
    omega
  have htok : 1000 ≤ (1000 + bucket.perSecond.toNat - 1) / bucket.perSecond.toNat * bucket.perSecond.toNat := by
    have hmod := Nat.mod_lt (1000 + bucket.perSecond.toNat - 1) hrate
    have hdiv := Nat.div_add_mod' (1000 + bucket.perSecond.toNat - 1) bucket.perSecond.toNat
    omega
  have hrefill : 0 < bucket.refill call.now := by
    have htot := Nat.mul_le_mul_right bucket.perSecond.toNat hmillis
    unfold TokenBucket.refill
    omega
  obtain ⟨-, -, ⟨hnone, -⟩ | ⟨-, -, -, hgranted⟩⟩ := take_cases h
  · omega
  · exact hgranted hcap

theorem exists_take (bucket : TokenBucket) (now refilled : Nat) :
    ∃ granted next, bucket.Takes ⟨now, refilled, granted⟩ next := by
  let taken := if 0 < bucket.refill now then
      { bucket with tokens := bucket.topUp (bucket.refill now), refilled := refilled : TokenBucket }.spend
    else bucket.spend
  exact ⟨taken.1, taken.2, takes_iff.2 rfl⟩

end Window

/-- **The rate limit of a session.** For every positive capacity and rate, and every sequence of calls of `take` on a clock that
does not go back: a window of `millis` milliseconds grants at most the capacity, one more and the tokens of the window; the
tokens do not exceed the capacity; and another call returns, and is granted if the last one was at least `1000 / rate`
milliseconds ago, rounded up. -/
theorem session_rate_limit {capacity perSecond : UInt32} {created : Nat} {calls : List Take} {last : TokenBucket}
    (hcapacity : 0 < capacity) (hrate : 0 < perSecond) (htimed : Timed created calls)
    (hcalls : Run TokenBucket.Takes (.new capacity perSecond created) calls last) :
    (∀ start millis, calls.countP (Take.grantedIn start (start + millis * 1000000)) ≤
        capacity.toNat + 1 + millis * perSecond.toNat / 1000) ∧
      last.tokens.toNat ≤ capacity.toNat ∧
      ∀ now refilled, (∃ granted next, last.Takes ⟨now, refilled, granted⟩ next) ∧
        (lastReading created calls + (1000 + perSecond.toNat - 1) / perSecond.toNat * 1000000 ≤ now →
          ∀ granted next, last.Takes ⟨now, refilled, granted⟩ next → granted = true) := by
  have hkept := kept_after hcalls htimed le_rfl le_rfl
  have htokens := hkept.tokens
  have hrefilled := hkept.refilled
  rw [hkept.capacity] at htokens
  refine ⟨granted_le hcalls htimed le_rfl le_rfl, htokens, fun now refilled => ⟨exists_take last now refilled, ?_⟩⟩
  intro hpause granted next htake
  apply granted_of_pause htake
  · rw [hkept.capacity]
    exact UInt32.lt_iff_toNat_lt.1 hcapacity
  · rw [hkept.perSecond]
    exact UInt32.lt_iff_toNat_lt.1 hrate
  · rw [hkept.perSecond]
    exact le_trans (Nat.add_le_add_right hrefilled _) hpause

/-- Three calls at once empty a bucket of three tokens, so the fourth is refused; a millisecond later there is one more. -/
theorem session_rate_limit_burst :
    let calls : List Take := [⟨0, 0, true⟩, ⟨0, 0, true⟩, ⟨0, 0, true⟩, ⟨0, 0, false⟩]
    ∃ last, Run TokenBucket.Takes (.new 3 1000 0) calls last ∧ calls.countP (Take.grantedIn 0 1000000) ≤ 5 ∧
      ∃ next, last.Takes ⟨1000000, 1000001, true⟩ next := by
  intro calls
  have htimed : Timed 0 calls := by simp [calls, Timed]
  have hcalls : Run TokenBucket.Takes (.new 3 1000 0) calls ⟨0, 3, 1000, 0⟩ :=
    .cons (takes_iff.2 rfl) <| .cons (takes_iff.2 rfl) <| .cons (takes_iff.2 rfl) <| .cons (takes_iff.2 rfl) (.nil _)
  obtain ⟨hwindow, -, hnext⟩ := session_rate_limit (by decide) (by decide) htimed hcalls
  obtain ⟨⟨granted, next, htake⟩, hpause⟩ := hnext 1000000 1000001
  obtain rfl := hpause (by decide) granted next htake
  exact ⟨_, hcalls, hwindow 0 1, next, htake⟩

end OmaChat.Server
