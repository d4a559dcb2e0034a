/-
# The lock against guessing the PIN of an access point

An access point with a static PIN counts the external registrars that fail at M4 or M6
(`WscCheckPinAttackCount`). Every `MaxPinAttack` of them lock the set-up: for a time, or for good
once the count has come to `WSC_LOCK_FOREVER_PIN_ATTACK`. The time-out of the lock lifts it.

There is one count for both, and it begins anew with every lock. So it comes to
`WSC_LOCK_FOREVER_PIN_ATTACK` only if `MaxPinAttack` is as large, and with the value it is given when
the driver starts, which is 3, the set-up is never locked for good.
-/
import Mt7601.Wsc.Defs
import Mt7601.Lib.Run

namespace Mt7601.Wsc

/-- `WSC_WPS_AP_MAX_PIN_ATTACK` -/
def wscWpsApMaxPinAttack : UInt8 := 3
/-- `WSC_LOCK_FOREVER_PIN_ATTACK` -/
def wscLockForeverPinAttack : UInt8 := 10

/-! ## 1. The count and the lock -/

/-- `WSC_CTRL` of an access point, as far as the lock goes. -/
structure PinCtrl where
  wscState : WscState
  bSetupLock : Bool
  pinAttackCount : UInt8
  maxPinAttack : UInt8
  /-- the timer is set: the lock has been set for a time -/
  wscSetupLockTimerRunning : Bool
deriving Repr, DecidableEq

namespace PinCtrl

/-- `WscCheckPinAttackCount` -/
def wscCheckPinAttackCount (c : PinCtrl) : PinCtrl :=
  let c := { c with pinAttackCount := c.pinAttackCount + 1 }
  if c.maxPinAttack ≤ c.pinAttackCount then
    let c :=
      { c with
        bSetupLock := true
        wscSetupLockTimerRunning := false }
    let c :=
      if c.pinAttackCount < wscLockForeverPinAttack then { c with wscSetupLockTimerRunning := true }
      else c
    { c with pinAttackCount := 0 }
  else c

/-- `WscSetupLockTimeout`, of a timer that was set. -/
def wscSetupLockTimeout (c : PinCtrl) : PinCtrl :=
  if c.wscSetupLockTimerRunning then
    { c with
      bSetupLock := false
      wscSetupLockTimerRunning := false }
  else c

/-- `Fail` of `WscEapEnrolleeAction` -/
def failed (c : PinCtrl) : PinCtrl := { c with wscState := .off }

end PinCtrl

/-- What happens to the access point. `rv` is what the `ProcessMessage` function returns. -/
inductive PinOp
  | m2 (rv : Nat)
  | m4 (rv : Nat)
  | m6 (rv : Nat)
  | setupLockTimeout
  /-- a session starts, stops or goes on in some other way -/
  | session (wscState : WscState)

/-- `WscEapEnrolleeAction`, as far as the lock goes. -/
def PinCtrl.step (c : PinCtrl) : PinOp → PinCtrl
  | .m2 rv =>
    if c.wscState = .sentM1 ∨ c.wscState = .rxM2D then
      if rv ≠ 0 then c.failed
      else if c.bSetupLock then c.failed
      else { c with wscState := .waitM4 }
    else c
  | .m4 rv =>
    if c.wscState = .waitM4 then
      if rv ≠ 0 then c.wscCheckPinAttackCount.failed else { c with wscState := .waitM6 }
    else c
  | .m6 rv =>
    if c.wscState = .waitM6 then
      if rv ≠ 0 then c.wscCheckPinAttackCount.failed else { c with wscState := .waitM8 }
    else c
  | .setupLockTimeout => c.wscSetupLockTimeout
  | .session wscState => { c with wscState := wscState }

/-- When the driver starts; `MaxPinAttack` is `WSC_WPS_AP_MAX_PIN_ATTACK` there. -/
def PinCtrl.start (maxPinAttack : UInt8) : PinCtrl where
  wscState := .off
  bSetupLock := false
  pinAttackCount := 0
  maxPinAttack := maxPinAttack
  wscSetupLockTimerRunning := false

/-! ## 2. What the lock is to do -/

/-- An attempt fails at M4 or M6. -/
def PinCtrl.Fails (c : PinCtrl) : PinOp → Prop
  | .m4 rv => c.wscState = .waitM4 ∧ rv ≠ 0
  | .m6 rv => c.wscState = .waitM6 ∧ rv ≠ 0
  | _ => False

instance (c : PinCtrl) (op : PinOp) : Decidable (c.Fails op) :=
  match op with
  | .m4 _ => inferInstanceAs (Decidable (_ ∧ _))
  | .m6 _ => inferInstanceAs (Decidable (_ ∧ _))
  | .m2 _ => inferInstanceAs (Decidable False)
  | .setupLockTimeout => inferInstanceAs (Decidable False)
  | .session _ => inferInstanceAs (Decidable False)

/-- The set-up is locked, and no time-out is under way. -/
def PinCtrl.LockedForever (c : PinCtrl) : Prop :=
  c.bSetupLock = true ∧ c.wscSetupLockTimerRunning = false

/-- The access point, with the failures counted: all of them, and those of the counting window, which
ends with every `MaxPinAttack`-th. -/
structure PinWatch where
  ctrl : PinCtrl
  failures : Nat
  window : Nat
deriving Repr, DecidableEq

namespace PinWatch

def step (w : PinWatch) (op : PinOp) : PinWatch :=
  if w.ctrl.Fails op then
    { ctrl := w.ctrl.step op
      failures := w.failures + 1
      window := if w.ctrl.maxPinAttack.toNat ≤ w.window + 1 then 0 else w.window + 1 }
  else { w with ctrl := w.ctrl.step op }

def start (maxPinAttack : UInt8) : PinWatch := ⟨.start maxPinAttack, 0, 0⟩

/-- **What holds of the lock**: no more failures than `WSC_LOCK_FOREVER_PIN_ATTACK` without the
permanent lock, a lock at every `MaxPinAttack`-th failure of the window, and a permanent lock
stays. -/
structure PinLaw (w : PinWatch) : Prop where
  failures : w.failures ≤ wscLockForeverPinAttack.toNat ∨ w.ctrl.LockedForever
  locks : ∀ op, w.ctrl.Fails op → w.ctrl.maxPinAttack.toNat ≤ w.window + 1 →
    (w.step op).ctrl.bSetupLock = true
  stays : ∀ op, w.ctrl.LockedForever → (w.step op).ctrl.LockedForever

/-! ## 3. The invariant -/

/-- The count is that of the window. Below `WSC_LOCK_FOREVER_PIN_ATTACK` every lock has its time-out;
from there on none has, and there is no lock before that failure. -/
structure Inv (maxPinAttack : UInt8) (w : PinWatch) : Prop where
  max : w.ctrl.maxPinAttack = maxPinAttack
  count : w.ctrl.pinAttackCount.toNat = w.window
  window : w.window < maxPinAttack.toNat ∨ w.window = 0
  window_le : w.window ≤ w.failures
  timed : maxPinAttack.toNat < 10 → w.ctrl.bSetupLock = true →
    w.ctrl.wscSetupLockTimerRunning = true
  untimed : 10 ≤ maxPinAttack.toNat → w.ctrl.wscSetupLockTimerRunning = false
  unlocked : 10 ≤ maxPinAttack.toNat → w.ctrl.bSetupLock = false → w.failures = w.window
  locked : w.ctrl.bSetupLock = true → maxPinAttack.toNat ≤ w.failures

end PinWatch

/-- A failure is counted. -/
theorem PinCtrl.step_of_fails {c : PinCtrl} {op : PinOp} (h : c.Fails op) :
    c.step op = c.wscCheckPinAttackCount.failed := by
  cases op with
  | m4 rv =>
    unfold PinCtrl.step
    dsimp only
    rw [if_pos h.1, if_pos h.2]
  | m6 rv =>
    unfold PinCtrl.step
    dsimp only
    rw [if_pos h.1, if_pos h.2]
  | _ => exact absurd h id

/-- Nothing else touches the count, and only the time-out touches the lock. -/
theorem PinCtrl.step_of_not_fails {c : PinCtrl} {op : PinOp} (h : ¬ c.Fails op) :
    (∃ st, c.step op = { c with wscState := st }) ∨ c.step op = c.wscSetupLockTimeout := by
  cases op with
  | m2 rv =>
    left
    unfold PinCtrl.step
    dsimp only
    split
    · split
      · exact ⟨.off, rfl⟩
      · split
        · exact ⟨.off, rfl⟩
        · exact ⟨.waitM4, rfl⟩
    · exact ⟨c.wscState, rfl⟩
  | m4 rv =>
    left
    unfold PinCtrl.step
    dsimp only
    split
    · rename_i hst
      rw [if_neg fun hrv => h ⟨hst, hrv⟩]
      exact ⟨.waitM6, rfl⟩
    · exact ⟨c.wscState, rfl⟩
  | m6 rv =>
    left
    unfold PinCtrl.step
    dsimp only
    split
    · rename_i hst
      rw [if_neg fun hrv => h ⟨hst, hrv⟩]
      exact ⟨.waitM8, rfl⟩
    · exact ⟨c.wscState, rfl⟩
  | setupLockTimeout => exact .inr rfl
  | session st => exact .inl ⟨st, rfl⟩

namespace PinWatch

variable {m : UInt8} {w : PinWatch} {op : PinOp}

/-- The failure that the lock is set with. -/
theorem check_locks {c : PinCtrl} (hm : c.maxPinAttack ≤ c.pinAttackCount + 1) :
    c.wscCheckPinAttackCount =
      { c with
        bSetupLock := true
        pinAttackCount := 0
        wscSetupLockTimerRunning := decide (c.pinAttackCount + 1 < wscLockForeverPinAttack) } := by
  unfold PinCtrl.wscCheckPinAttackCount
  dsimp only
  rw [if_pos hm]
  by_cases hlt : c.pinAttackCount + 1 < wscLockForeverPinAttack
  · rw [if_pos hlt, decide_eq_true hlt]
  · rw [if_neg hlt, decide_eq_false hlt]

theorem check_counts {c : PinCtrl} (hm : ¬ c.maxPinAttack ≤ c.pinAttackCount + 1) :
    c.wscCheckPinAttackCount = { c with pinAttackCount := c.pinAttackCount + 1 } := by
  unfold PinCtrl.wscCheckPinAttackCount
  dsimp only
  rw [if_neg hm]

theorem Inv.count_succ (h : Inv m w) : (w.ctrl.pinAttackCount + 1).toNat = w.window + 1 := by
  have hmax := m.toNat_lt
  have hone : (1 : UInt8).toNat = 1 := rfl
  rw [UInt8.toNat_add, hone, h.count]
  rcases h.window with hlt | h0 <;> omega

/-- The count is compared as the window is. -/
theorem Inv.le_iff (h : Inv m w) :
    w.ctrl.maxPinAttack ≤ w.ctrl.pinAttackCount + 1 ↔ m.toNat ≤ w.window + 1 := by
  rw [UInt8.le_iff_toNat_le, h.count_succ, h.max]

theorem Inv.lt_iff (h : Inv m w) :
    w.ctrl.pinAttackCount + 1 < wscLockForeverPinAttack ↔ w.window + 1 < 10 := by
  rw [UInt8.lt_iff_toNat_lt, h.count_succ]
  exact Iff.rfl

theorem Inv.start : Inv m (start m) where
  max := rfl
  count := rfl
  window := .inr rfl
  window_le := Nat.le_refl _
  timed := fun _ h => absurd h Bool.false_ne_true
  untimed := fun _ => rfl
  unlocked := fun _ _ => rfl
  locked := fun h => absurd h Bool.false_ne_true

/-- **A failure.** -/
theorem Inv.fails (h : Inv m w) (hf : w.ctrl.Fails op) : Inv m (w.step op) := by
  have hwindow := h.window_le
  unfold PinWatch.step
  rw [if_pos hf, PinCtrl.step_of_fails hf, h.max]
  by_cases hm : m.toNat ≤ w.window + 1
  · rw [if_pos hm, check_locks (h.le_iff.2 hm)]
    unfold PinCtrl.failed
    constructor
    · exact h.max
    · rfl
    · exact .inr rfl
    · exact Nat.zero_le _
    · intro hlt _
      exact decide_eq_true (h.lt_iff.2 (by
        rcases h.window with hw | h0 <;> omega))
    · intro hge
      refine decide_eq_false fun hlt => ?_
      have := h.lt_iff.1 hlt
      omega
    · exact fun _ hno => absurd hno.symm Bool.false_ne_true
    · intro _
      dsimp only
      omega
  · rw [if_neg hm, check_counts fun hle => hm (h.le_iff.1 hle)]
    unfold PinCtrl.failed
    constructor
    · exact h.max
    · exact h.count_succ
    · left
      dsimp only
      omega
    · exact Nat.succ_le_succ hwindow
    · exact h.timed
    · exact h.untimed
    · exact fun hge hno => congrArg (· + 1) (h.unlocked hge hno)
    · exact fun hlock => Nat.le_succ_of_le (h.locked hlock)

/-- **Anything else.** -/
theorem Inv.other (h : Inv m w) (hf : ¬ w.ctrl.Fails op) : Inv m (w.step op) := by
  unfold PinWatch.step
  rw [if_neg hf]
  rcases PinCtrl.step_of_not_fails hf with ⟨st, heq⟩ | heq
  · rw [heq]
    exact ⟨h.max, h.count, h.window, h.window_le, h.timed, h.untimed, h.unlocked, h.locked⟩
  · rw [heq, PinCtrl.wscSetupLockTimeout]
    split
    · rename_i hrunning
      constructor
      · exact h.max
      · exact h.count
      · exact h.window
      · exact h.window_le
      · exact fun _ hlock => absurd hlock Bool.false_ne_true
      · exact fun _ => rfl
      · -- no time-out is under way there
        intro hge _
        rw [h.untimed hge] at hrunning
        exact absurd hrunning Bool.false_ne_true
      · exact fun hlock => absurd hlock Bool.false_ne_true
    · exact h

theorem Inv.step (h : Inv m w) : Inv m (w.step op) := by
  by_cases hf : w.ctrl.Fails op
  · exact h.fails hf
  · exact h.other hf

/-! ## 4. What holds of the lock -/

/-- **Every `MaxPinAttack`-th failure locks the set-up.** -/
theorem Inv.locks (h : Inv m w) (hf : w.ctrl.Fails op)
    (hm : w.ctrl.maxPinAttack.toNat ≤ w.window + 1) : (w.step op).ctrl.bSetupLock = true := by
  rw [h.max] at hm
  unfold PinWatch.step
  rw [if_pos hf, PinCtrl.step_of_fails hf]
  dsimp only
  rw [check_locks (h.le_iff.2 hm)]
  rfl

/-- Where the lock is set, there are `WSC_LOCK_FOREVER_PIN_ATTACK` failures to a window. -/
theorem Inv.ten_le (h : Inv m w) (hlocked : w.ctrl.LockedForever) : 10 ≤ m.toNat := by
  by_contra hlt
  have htimed := h.timed (by omega) hlocked.1
  rw [hlocked.2] at htimed
  exact absurd htimed Bool.false_ne_true

/-- A failure does not lift a lock. -/
theorem check_bSetupLock {c : PinCtrl} (hlock : c.bSetupLock = true) :
    c.wscCheckPinAttackCount.bSetupLock = true := by
  unfold PinCtrl.wscCheckPinAttackCount
  dsimp only
  split
  · split
    · rfl
    · rfl
  · exact hlock

/-- **A permanent lock stays.** -/
theorem Inv.stays (h : Inv m w) (hlocked : w.ctrl.LockedForever) :
    (w.step op).ctrl.LockedForever := by
  have hten := h.ten_le hlocked
  refine ⟨?_, h.step.untimed hten⟩
  unfold PinWatch.step
  split
  · rename_i hf
    rw [PinCtrl.step_of_fails hf]
    exact check_bSetupLock hlocked.1
  · rename_i hf
    rcases PinCtrl.step_of_not_fails hf with ⟨st, heq⟩ | heq
    · rw [heq]
      exact hlocked.1
    · rw [heq, PinCtrl.wscSetupLockTimeout, if_neg (by rw [hlocked.2]; exact Bool.false_ne_true)]
      exact hlocked.1

theorem Inv.pinLaw (h : Inv m w)
    (hfailures : w.failures ≤ wscLockForeverPinAttack.toNat ∨ w.ctrl.LockedForever) : PinLaw w where
  failures := hfailures
  locks := fun _ hf hm => h.locks hf hm
  stays := fun _ hlocked => h.stays hlocked

theorem failures_step (w : PinWatch) (op : PinOp) : (w.step op).failures ≤ w.failures + 1 := by
  unfold PinWatch.step
  split
  · exact Nat.le_refl _
  · exact Nat.le_succ _

theorem le_failures_step (w : PinWatch) (op : PinOp) : w.failures ≤ (w.step op).failures := by
  unfold PinWatch.step
  split
  · exact Nat.le_succ _
  · exact Nat.le_refl _

theorem failures_final (w : PinWatch) (ops : List PinOp) :
    w.failures ≤ (Run.final step w ops).failures :=
  Run.invariant_always (fun w' : PinWatch => w.failures ≤ w'.failures)
    (fun _ op h => Nat.le_trans h (le_failures_step _ op)) (Nat.le_refl _)

/-- **The lock over runs**: it does what it is to do in every state of a run exactly if no more than
`WSC_LOCK_FOREVER_PIN_ATTACK` attempts of the run fail, or `MaxPinAttack` is 10 or 11. -/
theorem pinLaw_iff (maxPinAttack : UInt8) (ops : List PinOp) :
    (∀ done rest, ops = done ++ rest → PinLaw (Run.final step (start maxPinAttack) done)) ↔
      (Run.final step (start maxPinAttack) ops).failures ≤ wscLockForeverPinAttack.toNat ∨
        maxPinAttack = 10 ∨ maxPinAttack = 11 := by
  have hinv : ∀ ops, Inv maxPinAttack (Run.final step (start maxPinAttack) ops) :=
    fun ops => Run.invariant_always (Inv maxPinAttack) (fun _ _ h => h.step) Inv.start
  have hval : wscLockForeverPinAttack.toNat = 10 := rfl
  rw [hval]
  constructor
  · intro hall
    by_contra hno
    push Not at hno
    obtain ⟨hmany, hne10, hne11⟩ := hno
    -- the eleventh failure
    have heleventh : 10 < (Run.final step (start maxPinAttack) ops).failures := by omega
    obtain ⟨done, rest, hsplit, heleven⟩ := Run.exists_count_eq PinWatch.failures failures_step
      (s := start maxPinAttack) (Nat.zero_le 11) heleventh
    have hdone := hinv done
    rcases (hall done rest hsplit).failures with hfew | hlocked
    · rw [heleven, hval] at hfew
      omega
    · have hten := hdone.ten_le hlocked
      have hle := hdone.locked hlocked.1
      rw [heleven] at hle
      rcases (by omega : maxPinAttack.toNat = 10 ∨ maxPinAttack.toNat = 11) with h10 | h11
      · exact hne10 (UInt8.toNat_inj.1 h10)
      · exact hne11 (UInt8.toNat_inj.1 h11)
  · intro hcond done rest hsplit
    have hdone := hinv done
    refine hdone.pinLaw ?_
    rw [hval]
    rcases hcond with hfew | hm
    · left
      rw [hsplit, Run.final_append] at hfew
      exact Nat.le_trans (failures_final _ rest) hfew
    · have hm' : maxPinAttack.toNat = 10 ∨ maxPinAttack.toNat = 11 := by
        rcases hm with rfl | rfl
        · exact .inl rfl
        · exact .inr rfl
      by_cases hlock : (Run.final step (start maxPinAttack) done).ctrl.bSetupLock = true
      · exact .inr ⟨hlock, hdone.untimed (by omega)⟩
      · -- not one window is full
        left
        have htotal := hdone.unlocked (by omega) (by simpa using hlock)
        have hwindow := hdone.window
        omega

end PinWatch

namespace Example

/-- A registrar with a wrong PIN: M2 is taken, M4 fails. -/
def attempt : List PinOp := [.session .sentM1, .m2 0, .m4 wscErrorDevPwdAuthFail]

/-- Three attempts, and the lock they set times out. -/
def attempts : List PinOp := attempt ++ attempt ++ attempt ++ [.setupLockTimeout]

/-- **Twelve attempts and no permanent lock.** -/
theorem not_pinLaw_twelve :
    ¬ ∀ (ops done rest : List PinOp), ops = done ++ rest →
      PinWatch.PinLaw
        (Run.final PinWatch.step (PinWatch.start wscWpsApMaxPinAttack) done) := by
  intro h
  have hlaw := h (attempts ++ attempts ++ attempts ++ attempts) _ [] (List.append_nil _).symm
  have hfinal : Run.final PinWatch.step (PinWatch.start wscWpsApMaxPinAttack)
      (attempts ++ attempts ++ attempts ++ attempts) = ⟨⟨.off, false, 0, 3, false⟩, 12, 0⟩ := by
    decide
  rw [hfinal] at hlaw
  rcases hlaw.failures with hfew | hlocked
  · exact absurd hfew (by decide)
  · exact absurd hlocked.1 (by decide)

end Example

end Mt7601.Wsc
