/-
# The retry timer of an authenticator

`WPARetryExec` of `ap/ap_wpa.c` sends the first message of the handshake again, or the group
message, until it gives the station up (`clearedAfter`).
-/
import Mt7601.Lib.Run
import Mt7601.Wpa.Handlers

namespace Mt7601.Wpa

/-- What the timer looks at: the entry is a client with a handshake, and the counter. -/
def Waits (ad : Adapter) (ctr : Nat) : Prop :=
  ad.entry.entryClient = true ∧ (ad.entry.authMode = .wpa ∨ ad.entry.authMode = .wpaPsk ∨
    ad.entry.authMode = .wpa2 ∨ ad.entry.authMode = .wpa2Psk) ∧ ad.entry.reTryCounter.toNat = ctr

/-- How many expiries end it: the counter starts at 0 for the pairwise handshake, at 10 behind the
third message and at 20 for the group message. -/
def expiriesLeft (ctr : Nat) : Nat :=
  if ctr = 255 then 5 else if ctr ≤ 2 then 4 - ctr else if ctr = 20 then 2 else 1

section

variable {C : Crypto} {env : Env} {ad : Adapter} {ctr : Nat}

theorem Waits.start4Way (h : Waits ad ctr) : Waits (wpaStart4WayHS C env ad).1 ctr := by
  unfold wpaStart4WayHS withPmkid
  dsimp only
  repeat' split
  all_goals exact h

theorem Waits.start2Way (h : Waits ad ctr) : Waits (wpaStart2WayGroupHS C env ad).1 ctr := by
  unfold wpaStart2WayGroupHS
  dsimp only
  repeat' split
  all_goals exact h

/-- **One expiry** clears the entry, or brings the end nearer. -/
theorem Waits.retry (h : Waits ad ctr) (halloc : env.alloc .mlme = true) :
    (expiriesLeft ctr = 1 ∧ (wpaRetryExec C env ad).1.entry = {}) ∨
      ∃ ctr', expiriesLeft ctr = expiriesLeft ctr' + 1 ∧ Waits (wpaRetryExec C env ad).1 ctr' := by
  obtain ⟨hclient, hmode, hctr⟩ := h
  have hlt := ad.entry.reTryCounter.toNat_lt
  have hnext : (ad.entry.reTryCounter + 1).toNat = (ctr + 1) % 256 := by
    rw [UInt8.toNat_add, hctr]
    rfl
  have hwaits : Waits { ad with entry.reTryCounter := ad.entry.reTryCounter + 1 }
      ((ctr + 1) % 256) := ⟨hclient, hmode, hnext⟩
  have hcleared : ∀ ad : Adapter, (mlmeDeAuthAction env ad).1.entry = {} := fun ad => by
    simp [mlmeDeAuthAction, halloc]
  rw [wpaRetryExec, if_neg (by simp [hclient])]
  dsimp only
  rw [if_pos hmode]
  simp only [UInt8.lt_iff_toNat_lt, ← UInt8.toNat_inj, hnext, UInt8.reduceToNat]
  have hlast : 21 < (ctr + 1) % 256 ∨ 3 < (ctr + 1) % 256 ∧ (ctr + 1) % 256 ≤ 20 →
      expiriesLeft ctr = 1 := by
    unfold expiriesLeft
    split_ifs <;> omega
  have hleft : (ctr + 1) % 256 ≤ 3 ∨ (ctr + 1) % 256 = 21 →
      expiriesLeft ctr = expiriesLeft ((ctr + 1) % 256) + 1 := by
    unfold expiriesLeft
    split_ifs <;> omega
  split_ifs with h21 h20 h3
  · exact .inl ⟨hlast (.inl h21), hcleared _⟩
  · exact .inr ⟨_, hleft (by omega), hwaits.start2Way⟩
  · exact .inr ⟨_, hleft (by omega), hwaits⟩
  · exact .inl ⟨hlast (by omega), hcleared _⟩
  · exact .inr ⟨_, hleft (by omega), hwaits.start4Way⟩
  · exact .inr ⟨_, hleft (by omega), hwaits.start4Way⟩
  · exact .inr ⟨_, hleft (by omega), hwaits⟩

theorem final_retry_cleared (h : ad.entry = {}) (envs : List Env) :
    (Run.final (fun ad env => (wpaRetryExec C env ad).1) ad envs).entry = {} := by
  refine Run.invariant_always (fun ad : Adapter => ad.entry = {}) (fun ad env h => ?_) h
  simp [wpaRetryExec, h]

end

/-- **The station is given up** exactly when so many expiries have passed without an answer. -/
def ClearedAfter (C : Crypto) (ad : Adapter) (envs : List Env) : Prop :=
  ∀ ctr, Waits ad ctr → (∀ env ∈ envs, env.alloc .mlme = true) →
    ((Run.final (fun ad env => (wpaRetryExec C env ad).1) ad envs).entry = {} ↔
      expiriesLeft ctr ≤ envs.length)

theorem clearedAfter (C : Crypto) (ad : Adapter) (envs : List Env) : ClearedAfter C ad envs := by
  induction envs generalizing ad with
  | nil =>
    intro ctr h _
    refine iff_of_false (fun hentry => ?_) ?_
    · have hclient := h.1
      rw [Run.final_nil] at hentry
      rw [hentry] at hclient
      exact absurd hclient nofun
    · unfold expiriesLeft
      split_ifs <;> simp; omega
  | cons env envs ih =>
    intro ctr h halloc
    obtain ⟨hnow, hrest⟩ := List.forall_mem_cons.mp halloc
    rw [Run.final_cons, List.length_cons]
    rcases h.retry (C := C) hnow with ⟨hleft, hentry⟩ | ⟨ctr', hleft, hwaits⟩
    · exact iff_of_true (final_retry_cleared hentry envs) (by omega)
    · rw [hleft, Nat.succ_le_succ_iff]
      exact ih _ ctr' hwaits hrest

end Mt7601.Wpa
