import TJ3Firmware.Connection
import Mathlib.Data.Finset.Basic
import Mathlib.Logic.Relation

namespace TJ3Firmware

open Library.Interaction

variable {Conn : Type} [DecidableEq Conn]

section Stack

-- Whether connectable advertising is active, and if not, why.
inductive Advertising
  -- there was no bt_le_adv_start yet
  | off
  | active
  -- the last bt_le_adv_start failed
  | refused
  -- a connection came about
  | connected
  -- a connection attempt failed
  | aborted
  deriving Repr, DecidableEq

def Advertising.start (advertising : Advertising) (rc : Int) : Advertising :=
  if rc = 0 ∨ advertising = .active then .active else .refused

-- The stack: the live connections, and how many references to each connection
-- object the application holds.
structure Link (Conn : Type) where
  live : Finset Conn
  advertising : Advertising
  refs : Conn → Nat

def Link.boot : Link Conn := ⟨∅, .off, fun _ => 0⟩

-- What the calls do to it. bt_conn_ref always succeeds.
def linkAdvance (link : Link Conn) (event : BtEvent Conn) (next : Link Conn) : Prop :=
  match event with
  | ⟨.enable, _⟩ => next = link
  | ⟨.leAdvStart, rc⟩ => next = { link with advertising := link.advertising.start rc }
  | ⟨.connRef conn, reply⟩ => reply = some conn ∧
      next = { link with refs := Function.update link.refs conn (link.refs conn + 1) }
  | ⟨.connUnref conn, _⟩ => next = { link with refs := Function.update link.refs conn (link.refs conn - 1) }

-- When the stack makes a callback, and what has happened by then. A
-- connection needs active advertising and ends it; an attempt that fails may
-- end it as well.
def Arrives (callback : Callback Conn) (link arrived : Link Conn) : Prop :=
  match callback with
  | .connected conn err => arrived.refs = link.refs ∧
      if err = 0 then link.advertising = .active ∧ arrived.live = insert conn link.live ∧
        arrived.advertising = .connected
      else arrived.live = link.live ∧
        (arrived.advertising = link.advertising ∨ link.advertising = .active ∧ arrived.advertising = .aborted)
  | .disconnected conn _ => conn ∈ link.live ∧ arrived = { link with live := link.live.erase conn }

end Stack

section Device

-- current_conn and the stack, between two callbacks.
structure Device (Conn : Type) where
  currentConn : Option Conn
  link : Link Conn

-- After ble_gatt_init, with the result of its bt_enable.
inductive Initialised (rc : Int) : Device Conn → Prop
  | init (trace : List (BtEvent Conn)) (link : Link Conn) (hruns : Runs bleGattInit trace (.ok ()))
      (henable : (⟨.enable, rc⟩ : BtEvent Conn) ∈ trace) (hpath : Path linkAdvance Link.boot trace link) :
      Initialised rc ⟨none, link⟩

-- One callback later.
inductive Follows : Device Conn → Device Conn → Prop
  | callback (callback : Callback Conn) (device : Device Conn) (arrived last : Link Conn)
      (trace : List (BtEvent Conn)) (currentConn : Option Conn) (harrives : Arrives callback device.link arrived)
      (hruns : Runs (callback.handle device.currentConn) trace (.ok currentConn))
      (hpath : Path linkAdvance arrived trace last) : Follows device ⟨currentConn, last⟩

def Reachable (device : Device Conn) : Prop :=
  ∃ rc first, Initialised rc first ∧ Relation.ReflTransGen Follows first device

-- One reference for the one live connection, which is not advertised beside.
structure ConnBalanced (device : Device Conn) : Prop where
  single : ∀ one ∈ device.link.live, ∀ other ∈ device.link.live, one = other
  quiet : device.link.live.Nonempty → device.link.advertising ≠ .active
  names : ∀ conn, device.currentConn = some conn ↔ conn ∈ device.link.live
  held : ∀ conn, device.link.refs conn = if device.currentConn = some conn then 1 else 0

-- A reference that is given back is held.
def Held (link : Link Conn) (op : BtCall Conn) : Prop := ∀ conn, op = .connUnref conn → 0 < link.refs conn

def UnrefsHeld (link : Link Conn) (trace : List (BtEvent Conn)) : Prop :=
  ∀ before event after middle, trace = before ++ event :: after → Path linkAdvance link before middle →
    Held middle event.op

end Device

section Idle

-- No connection is live and no reference held.
structure Idle (link : Link Conn) : Prop where
  live : link.live = ∅
  refs : ∀ conn, link.refs conn = 0

theorem Idle.balanced {link : Link Conn} (h : Idle link) : ConnBalanced ⟨none, link⟩ where
  single := by simp [h.live]
  quiet := by simp [h.live]
  names := by simp [h.live]
  held := by simp [h.refs]

theorem ConnBalanced.idle {link : Link Conn} (h : ConnBalanced ⟨none, link⟩) : Idle link where
  live := by
    apply Finset.eq_empty_of_forall_notMem
    intro conn hconn
    cases (h.names conn).mpr hconn
  refs := fun conn => h.held conn

-- While advertising is active there is no connection.
theorem ConnBalanced.idle_of_active {device : Device Conn} (h : ConnBalanced device)
    (hactive : device.link.advertising = .active) : device.currentConn = none ∧ Idle device.link := by
  obtain ⟨currentConn, link⟩ := device
  cases currentConn with
  | none => exact ⟨rfl, h.idle⟩
  | some conn =>
      have hlive : conn ∈ link.live := (h.names conn).mp rfl
      exact absurd hactive (h.quiet ⟨conn, hlive⟩)

end Idle

section Callbacks

-- What a callback does, after the stack has done its part.
def Handled (callback : Callback Conn) (device : Device Conn) (arrived : Link Conn) (next : Device Conn) : Prop :=
  match callback with
  | .connected conn err =>
      if err = 0 then
        next = ⟨some conn, { arrived with refs := Function.update arrived.refs conn (arrived.refs conn + 1) }⟩
      else next = ⟨device.currentConn, arrived⟩
  | .disconnected conn _ => ∃ rc : Int, next = ⟨none, { arrived with
      advertising := arrived.advertising.start rc
      refs := Function.update arrived.refs conn (arrived.refs conn - 1) }⟩

-- Only bt_conn_unref gives a reference back.
omit [DecidableEq Conn] in
theorem held_of_ne (link : Link Conn) (op : BtCall Conn) (h : ∀ conn, op ≠ .connUnref conn) : Held link op := by
  intro conn hop
  exact absurd hop (h conn)

-- The connection that ends is the one that current_conn names.
theorem handle_wp (callback : Callback Conn) (device : Device Conn) (arrived : Link Conn) (h : ConnBalanced device)
    (harrives : Arrives callback device.link arrived) :
    wp Held linkAdvance (callback.handle device.currentConn) (fun outcome next =>
      ∀ currentConn, outcome = .ok currentConn → Handled callback device arrived ⟨currentConn, next⟩) arrived := by
  cases callback with
  | connected conn err =>
      by_cases herr : err = 0
      · simp only [Callback.handle, connected, Handled, if_pos herr, if_neg (not_not.mpr herr)]
        apply wp_call (BtCall.connRef conn) _ _ _ (held_of_ne _ _ (by simp))
        intro reply next step currentConn houtcome
        obtain ⟨hreply, hnext⟩ := step
        cases houtcome
        subst hreply hnext
        rfl
      · simp only [Callback.handle, connected, Handled, if_neg herr, if_pos herr]
        intro currentConn houtcome
        cases houtcome
        rfl
  | disconnected conn reason =>
      obtain ⟨hconn, rfl⟩ := harrives
      have hcurrent := (h.names conn).mpr hconn
      rw [hcurrent]
      refine wp_call (BtCall.connUnref conn) _ _ _ ?_ ?_
      · intro held hop
        cases hop
        have hone := h.held conn
        rw [if_pos hcurrent] at hone
        simp [hone]
      · intro _ released hreleased
        cases hreleased
        apply wp_call BtCall.leAdvStart _ _ _ (held_of_ne _ _ (by simp))
        intro rc next step currentConn houtcome
        cases houtcome
        cases step
        exact ⟨rc, rfl⟩

variable {device next : Device Conn} {arrived : Link Conn}

theorem ConnBalanced.erase_eq_empty (h : ConnBalanced device) (conn : Conn) (hconn : conn ∈ device.link.live) :
    device.link.live.erase conn = ∅ := by
  apply Finset.eq_empty_of_forall_notMem
  intro other hother
  obtain ⟨hne, hlive⟩ := Finset.mem_erase.mp hother
  exact hne (h.single other hlive conn hconn)

theorem connected_balanced (conn : Conn) (h : ConnBalanced device) (harrives : Arrives (.connected conn 0) device.link arrived)
    (hnext : Handled (.connected conn 0) device arrived next) : ConnBalanced next := by
  obtain ⟨hrefs, harrives⟩ := harrives
  rw [if_pos rfl] at harrives
  obtain ⟨hactive, hlive, hended⟩ := harrives
  obtain ⟨-, hidle⟩ := h.idle_of_active hactive
  have honly : arrived.live = {conn} := by rw [hlive, hidle.live, insert_empty_eq]
  cases hnext
  refine ⟨?_, ?_, ?_, ?_⟩
  · simp [honly]
  · simp [hended]
  · intro other
    simp [honly, eq_comm]
  · intro other
    rw [hrefs, hidle.refs conn]
    by_cases hother : other = conn
    · subst hother
      simp
    · simp [hidle.refs other, hother, Ne.symm hother]

theorem failed_balanced (conn : Conn) (err : BitVec 8) (herr : err ≠ 0) (h : ConnBalanced device)
    (harrives : Arrives (.connected conn err) device.link arrived)
    (hnext : Handled (.connected conn err) device arrived next) : ConnBalanced next := by
  obtain ⟨hrefs, harrives⟩ := harrives
  rw [if_neg herr] at harrives
  obtain ⟨hlive, hadvertising⟩ := harrives
  simp only [Handled, if_neg herr] at hnext
  subst hnext
  refine ⟨?_, ?_, ?_, ?_⟩
  · rw [hlive]
    exact h.single
  · intro hsome hactive
    rw [hlive] at hsome
    rcases hadvertising with hsame | ⟨-, haborted⟩
    · exact h.quiet hsome (hsame ▸ hactive)
    · rw [haborted] at hactive
      cases hactive
  · intro other
    rw [hlive]
    exact h.names other
  · intro other
    rw [hrefs]
    exact h.held other

theorem disconnected_balanced (conn : Conn) (reason : BitVec 8) (h : ConnBalanced device)
    (harrives : Arrives (.disconnected conn reason) device.link arrived)
    (hnext : Handled (.disconnected conn reason) device arrived next) : ConnBalanced next := by
  obtain ⟨hconn, rfl⟩ := harrives
  have hcurrent := (h.names conn).mpr hconn
  obtain ⟨rc, rfl⟩ := hnext
  apply Idle.balanced
  refine ⟨h.erase_eq_empty conn hconn, ?_⟩
  intro other
  by_cases hother : other = conn
  · subst hother
    simp [h.held, hcurrent]
  · have hnone : device.currentConn ≠ some other := by
      rw [hcurrent]
      exact fun hsame => hother (Option.some.inj hsame).symm
    simp [h.held, hother, hnone]

theorem handled_balanced (callback : Callback Conn) (h : ConnBalanced device)
    (harrives : Arrives callback device.link arrived) (hnext : Handled callback device arrived next) :
    ConnBalanced next := by
  cases callback with
  | connected conn err =>
      by_cases herr : err = 0
      · subst herr
        exact connected_balanced conn h harrives hnext
      · exact failed_balanced conn err herr h harrives hnext
  | disconnected conn reason => exact disconnected_balanced conn reason h harrives hnext

theorem bleGattInit_idle : wp Held linkAdvance (bleGattInit : Bluetooth Conn Unit)
    (fun _ next => Idle next) Link.boot := by
  have hboot : Idle (Link.boot : Link Conn) := ⟨rfl, fun _ => rfl⟩
  unfold bleGattInit
  apply wp_call BtCall.enable _ _ _ (held_of_ne _ _ (by simp))
  intro (err : Int) enabled step
  cases step
  by_cases herr : err ≠ 0
  · rw [if_pos herr]
    exact hboot
  · rw [if_neg herr]
    apply wp_call BtCall.leAdvStart _ _ _ (held_of_ne _ _ (by simp))
    intro rc advertised step
    cases step
    exact ⟨rfl, fun _ => rfl⟩

end Callbacks

section Runs

theorem Initialised.balanced {rc : Int} {device : Device Conn} (h : Initialised rc device) : ConnBalanced device := by
  cases h with
  | init trace link hruns _ hpath => exact (wp_post _ _ _ _ _ _ bleGattInit_idle hruns hpath).balanced

theorem Follows.handled {device next : Device Conn} (h : Follows device next) (hbalanced : ConnBalanced device) :
    ∃ callback arrived, Arrives callback device.link arrived ∧ Handled callback device arrived next := by
  cases h with
  | callback callback _ arrived last trace currentConn harrives hruns hpath =>
      have hhandled := wp_post _ _ _ _ _ _ (handle_wp callback device arrived hbalanced harrives) hruns hpath
      exact ⟨callback, arrived, harrives, hhandled currentConn rfl⟩

theorem Follows.balanced {device next : Device Conn} (h : Follows device next) (hbalanced : ConnBalanced device) :
    ConnBalanced next := by
  obtain ⟨callback, arrived, harrives, hhandled⟩ := h.handled hbalanced
  exact handled_balanced callback hbalanced harrives hhandled

theorem balanced_of_steps {device last : Device Conn} (hbalanced : ConnBalanced device)
    (h : Relation.ReflTransGen Follows device last) : ConnBalanced last := by
  induction h with
  | refl => exact hbalanced
  | tail _ step ih => exact step.balanced ih

theorem unrefsHeld_of_wp {α : Type} (prog : Bluetooth Conn α) (post : Except Empty α → Link Conn → Prop)
    (link : Link Conn) (h : wp Held linkAdvance prog post link) (run : Run prog) : UnrefsHeld link run.trace := by
  intro before event after middle htrace hpath
  exact wp_guard prog post link middle _ before after event _ h run.runs htrace hpath

end Runs

-- After any callbacks the application holds one reference to the live
-- connection and no other, and no callback gives back one that it does not hold.
theorem references_balanced :
    (∀ run : Run (bleGattInit : Bluetooth Conn Unit), UnrefsHeld Link.boot run.trace) ∧
    ∀ device : Device Conn, Reachable device → ConnBalanced device ∧
      ∀ callback arrived, Arrives callback device.link arrived →
        ∀ run : Run (callback.handle device.currentConn), UnrefsHeld arrived run.trace := by
  constructor
  · intro run
    exact unrefsHeld_of_wp _ _ _ bleGattInit_idle run
  · intro device ⟨rc, first, hinit, hsteps⟩
    have hbalanced := balanced_of_steps hinit.balanced hsteps
    refine ⟨hbalanced, ?_⟩
    intro callback arrived harrives run
    exact unrefsHeld_of_wp _ _ _ (handle_wp callback device arrived hbalanced harrives) run

section Example

-- Every call succeeds.
def goodReplies : (call : BtCall Nat) → BtReply Nat call
  | .enable => (0 : Int)
  | .leAdvStart => (0 : Int)
  | .connRef conn => some conn
  | .connUnref _ => ()

def advertisingDevice : Device Nat := ⟨none, ⟨∅, .active, fun _ => 0⟩⟩

-- Connection object 1 is live.
def connectedDevice : Device Nat := ⟨some 1, ⟨{1}, .connected, Function.update (fun _ => 0) 1 1⟩⟩

theorem advertisingDevice_initialised : Initialised 0 advertisingDevice := by
  refine .init _ _ (bleGattInit.runWith goodReplies).runs List.mem_cons_self ?_
  exact .cons _ _ _ _ _ rfl (.cons _ _ _ _ _ rfl (.nil _))

theorem connectedDevice_follows : Follows advertisingDevice connectedDevice := by
  refine .callback (.connected 1 0) advertisingDevice ⟨{1}, .connected, fun _ => 0⟩ _ _ _ ⟨rfl, rfl, rfl, rfl⟩
    ((Callback.connected 1 0).handle none |>.runWith goodReplies).runs ?_
  exact .cons _ _ _ _ _ ⟨rfl, rfl⟩ (.nil _)

theorem connectedDevice_reachable : Reachable connectedDevice :=
  ⟨0, advertisingDevice, advertisingDevice_initialised, .single connectedDevice_follows⟩

theorem references_balanced_connected : ConnBalanced connectedDevice ∧
    ∀ callback arrived, Arrives callback connectedDevice.link arrived →
      ∀ run : Run (callback.handle connectedDevice.currentConn), UnrefsHeld arrived run.trace :=
  references_balanced.2 connectedDevice connectedDevice_reachable

end Example

end TJ3Firmware
