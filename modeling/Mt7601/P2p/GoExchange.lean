/-
# Who becomes the group owner: the exchange

Two devices that run this code, and frames between them that may be lost, delayed, duplicated and
crossed: a frame that was sent once can arrive at any time and any number of times.
-/
import Mathlib.Logic.Function.Basic
import Mt7601.P2p.GoNegotiation

namespace Mt7601.P2p

inductive Party
  | first
  | second
  deriving DecidableEq, Repr

namespace Party

def other : Party → Party
  | first => second
  | second => first

@[simp] theorem other_other (p : Party) : p.other.other = p := by cases p <;> rfl

end Party

/-- The devices, all that each has sent, and what became of the requests that reached it while one
of its own was out. -/
structure GoWorld where
  device : Party → GoDevice
  sent : Party → List GoFrame
  crossed : Party → List Bool

inductive GoAction
  /-- The peer is found. -/
  | discover (free : GoPeer)
  /-- What the user, or the provisioning before, settles about passwords. -/
  | configure (dpid configMethod : UInt16) (bConfirmByUI provisioned : Bool)
  | connect
  | startCommunicate (randomB : UInt8)
  | reSend (randomB : UInt8)
  | sendPassed
  /-- `P2pGotoIdle`: a scan begins or ends. -/
  | gotoIdle
  | linkDown
  /-- A frame of the other device arrives. -/
  | receive (k : Nat) (free : Option GoPeer) (atLimit : Bool)

namespace GoDevice

def discover (d : GoDevice) (free : GoPeer) : GoDevice :=
  match d.client with
  | some _ => d
  | none => { d with client := some { free with p2pClientState := .discovery } }

def configure (d : GoDevice) (dpid configMethod : UInt16) (bConfirmByUI provisioned : Bool) :
    GoDevice :=
  { d with dpid, configMethod, bConfirmByUI, client := d.client.map ({ · with provisioned }) }

/-- The device has sent a request and has not had an answer. -/
def HasRequestOut (d : GoDevice) : Prop :=
  d.client.map (·.p2pClientState) = some .sentGoNegReq

instance (d : GoDevice) : Decidable d.HasRequestOut :=
  inferInstanceAs (Decidable (_ = _))

/-- The device waits for a confirm. -/
def AwaitsConfirm (d : GoDevice) : Prop :=
  d.client.map (·.p2pClientState) = some .waitGoComfirm

instance (d : GoDevice) : Decidable d.AwaitsConfirm :=
  inferInstanceAs (Decidable (_ = _))

/-- What the device has become, if it has completed the negotiation: `P2P_GO_ON`, `P2P_CLI_ON`. -/
def completed (d : GoDevice) : Option P2pRule :=
  if d.goUp then some .isGo else if d.cliUp then some .isClient else none

end GoDevice

namespace GoWorld

/-- A device has done something, and what it sends is on the air from now on. -/
def put (w : GoWorld) (p : Party) (r : GoDevice × Option GoFrame) : GoWorld :=
  { w with
    device := Function.update w.device p r.1
    sent := Function.update w.sent p (w.sent p ++ r.2.toList) }

def isReq : GoFrame → Bool
  | .req .. => true
  | _ => false

/-- A frame arrives. -/
def deliver (cfg : Party → GoConfig) (w : GoWorld) (p : Party) (k : Nat) (free : Option GoPeer)
    (atLimit : Bool) : GoWorld :=
  match (w.sent p.other)[k]? with
  | none => w
  | some f =>
    let r := receiveGoFrame (cfg p) (cfg p.other).currentAddress free atLimit (w.device p) f
    if isReq f ∧ (w.device p).HasRequestOut then
      { w.put p r with crossed := Function.update w.crossed p (w.crossed p ++ [r.2.isSome]) }
    else w.put p r

def step (cfg : Party → GoConfig) (w : GoWorld) : Party × GoAction → GoWorld
  | (p, .discover free) => w.put p ((w.device p).discover free, none)
  | (p, .configure dpid configMethod bConfirmByUI provisioned) =>
    w.put p ((w.device p).configure dpid configMethod bConfirmByUI provisioned, none)
  | (p, .connect) => w.put p (p2pConnectPrepare (w.device p), none)
  | (p, .startCommunicate randomB) => w.put p (p2pStartCommunicate (cfg p) (w.device p) randomB)
  | (p, .reSend randomB) => w.put p (p2pReSendTimeOut (cfg p) (w.device p) randomB)
  | (p, .sendPassed) => w.put p (p2pSendPassed (w.device p), none)
  | (p, .gotoIdle) => w.put p ({ w.device p with goFormCurrentState := .idle }, none)
  | (p, .linkDown) => w.put p (p2pLinkDown (w.device p), none)
  | (p, .receive k free atLimit) => w.deliver cfg p k free atLimit

/-- Nothing has been sent, nobody has been found. -/
def start : GoWorld := { device := fun _ => {}, sent := fun _ => [], crossed := fun _ => [] }

/-- Both intents are 15. -/
def Both15 (cfg : Party → GoConfig) : Prop := ∀ p, (cfg p).goIntentIdx = 15

instance (cfg : Party → GoConfig) : Decidable (Both15 cfg) :=
  decidable_of_iff ((cfg .first).goIntentIdx = 15 ∧ (cfg .second).goIntentIdx = 15)
    ⟨fun h p => by cases p; exacts [h.1, h.2], fun h => ⟨h _, h _⟩⟩

/-- **The law**: when both have completed, one is group owner and one client; nobody completes when
both intents are 15; and of two requests that cross one is answered. -/
structure Agrees (cfg : Party → GoConfig) (w : GoWorld) : Prop where
  roles : ∀ r s, (w.device .first).completed = some r → (w.device .second).completed = some s →
    r = .isGo ∧ s = .isClient ∨ r = .isClient ∧ s = .isGo
  none15 : Both15 cfg → ∀ p, (w.device p).completed = none
  once : ∀ a ∈ w.crossed .first, ∀ b ∈ w.crossed .second, a ≠ b

/-- The device with an intent would be client, by an intent attribute of the peer. -/
def wouldBeClient (intent tempIntent : Nat) : Prop :=
  intent < tempIntent / 2 ∨ intent = tempIntent / 2 ∧ tempIntent % 2 = 1

instance (intent tempIntent : Nat) : Decidable (wouldBeClient intent tempIntent) :=
  inferInstanceAs (Decidable (_ ∨ _))

/-- The device looks at a request at all. -/
def Looks (atLimit : Bool) (d : GoDevice) : Prop :=
  (d.goFormCurrentState = .idle ∨ d.goFormCurrentState = .waitGoFormConf) ∧
    ¬ (d.goUp = true ∧ atLimit = true)

/-- The device looks at a request and answers it. -/
def Takes (own : GoConfig) (peerAddr : Octets 6) (free : Option GoPeer) (atLimit : Bool)
    (d : GoDevice) (configMethod : UInt16) : Prop :=
  Looks atLimit d ∧ ∃ e ∈ entryForReq d free configMethod, isAnswered own peerAddr e = true

/-- The condition on a frame that arrives at `p`. -/
def MeetsFrame (cfg : Party → GoConfig) (go p : Party) (d : GoDevice) (free : Option GoPeer)
    (atLimit : Bool) : GoFrame → Prop
  | .req tempIntent _ configMethod =>
    (Takes (cfg p) (cfg p.other).currentAddress free atLimit d configMethod →
      Both15 cfg ∨ (wouldBeClient (cfg p).goIntentIdx tempIntent ↔ p ≠ go)) ∧
    (d.HasRequestOut →
      Looks atLimit d ∧
      (isP2pFirstMacSmaller (cfg p).currentAddress (cfg p.other).currentAddress = true ∨
        isP2pFirstMacSmaller (cfg p.other).currentAddress (cfg p).currentAddress = true))
  | .confirm _ =>
    d.goFormCurrentState = .waitGoFormConf →
      d.p2pConnectState = .anyInFormationAsClient → d.AwaitsConfirm
  | .rsp .. => True

/-- The condition on a step; `go` is the device that is to be group owner. All requests that are
taken have to say so, which is a condition on their tie-breaker bits when the intents are equal. A
request that crosses one of the device's own has to be looked at, and of the two addresses one has
to be smaller in all octets. A confirm has to find a device that would take it as a client waiting
for it. -/
def Meets (cfg : Party → GoConfig) (go : Party) (w : GoWorld) : Party × GoAction → Prop
  | (p, .receive k free atLimit) =>
    ∀ f ∈ (w.sent p.other)[k]?, MeetsFrame cfg go p (w.device p) free atLimit f
  | _ => True

instance (cfg : Party → GoConfig) (go p : Party) (d : GoDevice) (free : Option GoPeer)
    (atLimit : Bool) : ∀ f, Decidable (MeetsFrame cfg go p d free atLimit f)
  | .req .. => by unfold MeetsFrame Takes Looks; infer_instance
  | .confirm .. => by unfold MeetsFrame; infer_instance
  | .rsp .. => .isTrue trivial

instance (cfg : Party → GoConfig) (go : Party) (w : GoWorld) :
    ∀ i, Decidable (Meets cfg go w i)
  | (p, .receive k _ _) => inferInstanceAs (Decidable (∀ f ∈ (w.sent p.other)[k]?, _))
  | (_, .discover _) => .isTrue trivial
  | (_, .configure ..) => .isTrue trivial
  | (_, .connect) => .isTrue trivial
  | (_, .startCommunicate _) => .isTrue trivial
  | (_, .reSend _) => .isTrue trivial
  | (_, .sendPassed) => .isTrue trivial
  | (_, .gotoIdle) => .isTrue trivial
  | (_, .linkDown) => .isTrue trivial

end GoWorld

end Mt7601.P2p
