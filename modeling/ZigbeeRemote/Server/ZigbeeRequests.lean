import ZigbeeRemote.Foundation.TransitionSystem
import ZigbeeRemote.Server.ZigbeeStack

/-!
# Requests and their answers

The RPC task calls the functions of the Zigbee interface one after the other, and the Zigbee task
calls the callbacks. A request that was accepted is answered at most once, at any later moment, also
when the call that made it has long returned. Nothing in an answer says which request it belongs to.

`own_response`: a call whose request was accepted and that does not time out returns what the answer
to its own request carries, provided that no callback for an earlier request touches the channel of
a call between the moment the call has emptied it and its return. `late_response` shows what
happens otherwise.
-/

set_option autoImplicit false
set_option relaxedAutoImplicit false

namespace ZigbeeRemote.Server.ZigbeeStack

open Foundation Zigbee

/-! ### Answers -/

/-- The channel of the answers to `zcl_read_attr_rsp` for a cluster. -/
def clusterChannel (clusterId : UInt16) : Option Channel :=
  if clusterId = clusterBasic then some (.semaphore .basicDone)
  else if clusterId = clusterTemperature then some (.semaphore .tempDone)
  else none

/-- The channel through which a request is answered. -/
def Request.channel : Request → Option Channel
  | .matchDesc _ _ _ _ => some .matchQ
  | .readAttr _ _ clusterId _ => clusterChannel clusterId
  | .bind _ _ _ _ _ _ => some (.semaphore .bindDone)
  | .configReport _ _ _ _ _ => some (.semaphore .reportDone)

/-- An answer to a request, as handed to its callback. -/
inductive Answer : Type
  | matched (result : Option MatchDescResult)
  | bound (result : Option BindResult)
  | attributes (message : ReadAttrRspMessage)
  | configured (status : Option UInt8)

def Answer.channel : Answer → Option Channel
  | .matched _ => some .matchQ
  | .bound _ => some (.semaphore .bindDone)
  | .attributes message => clusterChannel message.clusterId
  | .configured _ => some (.semaphore .reportDone)

/-- The callback of an answer. -/
def Answer.callback : Answer → List Access
  | .matched result => zdoMatchResult result
  | .bound result => zdoBindResult result
  | .attributes message => zclReadAttrRsp (some message)
  | .configured status => zclConfigReportRsp status

/-- What the Zigbee task reports of its own accord. -/
inductive Notice : Type
  | deviceAnnce (shortAddr : UInt16)
  | reportAttr (message : Option ReportAttrMessage)

/-- The callback of a notice. -/
def Notice.callback : Notice → List Access
  | .deviceAnnce shortAddr => ZigbeeStack.deviceAnnce shortAddr
  | .reportAttr message => zclReportAttr message

/-- The channel through which a function of the interface gets its answer. -/
def channelOf : ApiCall → Option Channel
  | .findSensor _ _ => some .matchQ
  | .readBasic _ _ _ => some (.semaphore .basicDone)
  | .bindSensor _ _ _ => some (.semaphore .bindDone)
  | .subscribeSensor _ _ _ => some (.semaphore .bindDone)
  | .configReport _ _ _ => some (.semaphore .reportDone)
  | .readTemp _ _ _ => some (.semaphore .tempDone)
  | _ => none

/-- The number of steps after which a function has emptied its channel. -/
def drainedAt : ApiCall → ℕ
  | .bindSensor _ _ _ => 2
  | .subscribeSensor _ _ _ => 2
  | _ => 1

/-- The channel an access writes to. -/
def Access.channel : Access → Option Channel
  | .sendMatch _ => some .matchQ
  | .give semaphore => some (.semaphore semaphore)
  | .setBindErr _ => some (.semaphore .bindDone)
  | .setReportErr _ => some (.semaphore .reportDone)
  | .clearBasic => some (.semaphore .basicDone)
  | .setBasicErr _ => some (.semaphore .basicDone)
  | .setManufacturer _ => some (.semaphore .basicDone)
  | .setModel _ => some (.semaphore .basicDone)
  | .clearTemp => some (.semaphore .tempDone)
  | .setTempErr _ => some (.semaphore .tempDone)
  | .setMeasured _ => some (.semaphore .tempDone)
  | .setMinMeasured _ => some (.semaphore .tempDone)
  | .setMaxMeasured _ => some (.semaphore .tempDone)
  | .setTolerance _ => some (.semaphore .tempDone)
  | .sendAnnce _ => none
  | .setLastTemp _ => none
  | .setLastSensorAddr _ => none
  | .fault => none

/-- An access that signals the arrival of an answer. -/
def Access.delivers : Access → Bool
  | .sendMatch _ => true
  | .give _ => true
  | _ => false

/-! ### What a channel holds -/

section Channels

variable {f g : Firmware} {channel : Channel}

/-- The variable that goes with a semaphore. -/
def Firmware.cached (firmware : Firmware) : Semaphore → ApiValue
  | .basicDone => .basic firmware.basicCache
  | .tempDone => .temp firmware.tempCache
  | .bindDone => .i32 firmware.bindErr
  | .reportDone => .i32 firmware.reportErr

/-- What a call that waits on a channel would return now. -/
def Firmware.content (firmware : Firmware) : Channel → Option ApiValue
  | .matchQ => firmware.matchQ.head?.map ApiValue.addr
  | .semaphore semaphore =>
    if firmware.given semaphore then some (firmware.cached semaphore) else none

/-- The firmware with nothing in it. -/
def Firmware.blank : Firmware :=
  .initial ⟨true, ezbErrNone, fun _ ↦ ezbErrNone, 0, 0, 0, 0, fun _ ↦ none, true, true⟩

/-- What an answer carries: what its callback leaves in an empty channel. That is what the callback
reads from the answer: `outcome_matched`, `outcome_bound` and `outcome_configured` here, and
`outcome_basicResponse` and `outcome_tempResponse` for the responses to a read request. -/
def Answer.outcome (answer : Answer) : Option ApiValue :=
  answer.channel.bind (Firmware.blank.replay answer.callback).content

theorem outcome_matched (result : Option MatchDescResult) :
    (Answer.matched result).outcome = some (.addr (matchResultAddr result)) := rfl

/-- What `zdo_bind_result` reads from a result: its error, or else the status of its response. Where
there is neither it has followed a null pointer. -/
def bindErrOf : Option BindResult → Int32
  | none => -1
  | some ⟨error, rsp⟩ =>
    if error ≠ ezbErrNone then error
    else rsp.elim (-1) fun status ↦ if status = zdpStatusSuccess then 0 else status.toUInt32.toInt32

theorem outcome_bound (result : Option BindResult) :
    (Answer.bound result).outcome = some (.i32 (bindErrOf result)) := by
  cases result with
  | none => rfl
  | some result =>
    obtain ⟨error, rsp⟩ := result
    have hchannel : (Answer.bound (some ⟨error, rsp⟩)).channel = some (.semaphore .bindDone) := rfl
    have hcallback : (Answer.bound (some ⟨error, rsp⟩)).callback =
        .setBindErr (-1) :: bindResultErr (some ⟨error, rsp⟩) ++ [.give .bindDone] := rfl
    rw [Answer.outcome, hchannel, Option.bind_some, hcallback]
    by_cases herror : error = ezbErrNone
    · cases rsp with
      | none => simp [bindResultErr, bindErrOf, herror, Firmware.replay, Firmware.access,
          Firmware.content, Firmware.cached]
      | some status =>
        by_cases hstatus : status = zdpStatusSuccess
        · simp [bindResultErr, bindErrOf, herror, hstatus, Firmware.replay, Firmware.access,
            Firmware.content, Firmware.cached]
        · simp [bindResultErr, bindErrOf, herror, hstatus, Firmware.replay, Firmware.access,
            Firmware.content, Firmware.cached]
    · cases rsp <;> simp [bindResultErr, bindErrOf, herror, Firmware.replay, Firmware.access,
        Firmware.content, Firmware.cached]

/-- `zcl_config_report_rsp` reads whether there is a response that says success. -/
theorem outcome_configured (status : Option UInt8) :
    (Answer.configured status).outcome =
      some (.i32 (if status = some zclStatusSuccess then 0 else -1)) := by
  have hchannel : (Answer.configured status).channel = some (.semaphore .reportDone) := rfl
  rw [Answer.outcome, hchannel, Option.bind_some, Answer.callback, zclConfigReportRsp]
  split_ifs <;> simp [Firmware.replay, Firmware.access, Firmware.content, Firmware.cached]

/-- Two states that agree on a channel. -/
def SameChannel : Channel → Firmware → Firmware → Prop
  | .matchQ, f, g => f.matchQ = g.matchQ
  | .semaphore semaphore, f, g =>
    f.given semaphore = g.given semaphore ∧ f.cached semaphore = g.cached semaphore

theorem SameChannel.refl : SameChannel channel f f := by
  cases channel with
  | matchQ => rfl
  | semaphore semaphore => exact ⟨rfl, rfl⟩

theorem SameChannel.trans {h : Firmware} (hfirst : SameChannel channel f g)
    (hsecond : SameChannel channel g h) : SameChannel channel f h := by
  cases channel with
  | matchQ => exact Eq.trans hfirst hsecond
  | semaphore semaphore => exact ⟨hfirst.1.trans hsecond.1, hfirst.2.trans hsecond.2⟩

theorem SameChannel.holds (hsame : SameChannel channel f g) : f.holds channel = g.holds channel := by
  cases channel with
  | matchQ => exact congrArg List.head? hsame
  | semaphore semaphore => simp only [Firmware.holds, hsame.1]

theorem SameChannel.content (hsame : SameChannel channel f g) :
    f.content channel = g.content channel := by
  cases channel with
  | matchQ => exact congrArg (fun queue ↦ queue.head?.map ApiValue.addr) hsame
  | semaphore semaphore => simp only [Firmware.content, hsame.1, hsame.2]

/-- What an access does to a channel depends on that channel only. -/
theorem SameChannel.access (hsame : SameChannel channel f g) (access : Access) :
    SameChannel channel (f.access access) (g.access access) := by
  cases channel with
  | matchQ =>
    have hqueue : f.matchQ = g.matchQ := hsame
    cases access <;> simp [SameChannel, Firmware.access, hqueue]
  | semaphore semaphore =>
    obtain ⟨hgiven, hcached⟩ := hsame
    cases access <;> cases semaphore <;>
      simp_all [SameChannel, Firmware.access, Firmware.cached, Function.update_apply]

theorem SameChannel.replay (hsame : SameChannel channel f g) (accesses : List Access) :
    SameChannel channel (f.replay accesses) (g.replay accesses) := by
  induction accesses generalizing f g with
  | nil => exact hsame
  | cons access accesses ih => exact ih (hsame.access access)

/-- An access leaves the other channels alone. -/
theorem sameChannel_access {access : Access} (hother : access.channel ≠ some channel) :
    SameChannel channel (f.access access) f := by
  cases channel with
  | matchQ => cases access <;> simp_all [SameChannel, Firmware.access, Access.channel]
  | semaphore semaphore =>
    cases access with
    | give other =>
      have hne : semaphore ≠ other := fun h ↦ hother (by rw [h]; rfl)
      refine ⟨?_, ?_⟩
      · simp [Firmware.access, Function.update_of_ne hne]
      · cases semaphore <;> rfl
    | _ => cases semaphore <;> simp_all [SameChannel, Firmware.access, Access.channel, Firmware.cached]

theorem holds_access {access : Access} (hquiet : access.delivers = false) :
    (f.access access).holds channel = f.holds channel := by
  cases access with
  | sendMatch out => simp [Access.delivers] at hquiet
  | give semaphore => simp [Access.delivers] at hquiet
  | _ => cases channel <;> rfl

@[simp] theorem calls_access (access : Access) : (f.access access).calls = f.calls := by
  cases access <;> rfl

@[simp] theorem accepted_access (access : Access) : (f.access access).accepted = f.accepted := by
  cases access <;> rfl

/-- The variables that belong to no channel. -/
theorem sameChannel_with (lastSensorAddr : UInt16) (outside : Surroundings) (calls : ℕ)
    (accepted : List (ℕ × Request)) :
    SameChannel channel
      { f with
        lastSensorAddr := lastSensorAddr
        outside := outside
        calls := calls
        accepted := accepted } f := by
  cases channel with
  | matchQ => rfl
  | semaphore semaphore => cases semaphore <;> exact ⟨rfl, rfl⟩

theorem exists_content {item : channel.Item} (hholds : f.holds channel = some item) :
    ∃ value, f.content channel = some value := by
  cases channel with
  | matchQ =>
    have hhead : f.matchQ.head? = some item := hholds
    exact ⟨_, congrArg (Option.map ApiValue.addr) hhead⟩
  | semaphore semaphore =>
    have hgiven : f.given semaphore = true := by
      by_contra hnot
      simp [Firmware.holds, hnot] at hholds
    exact ⟨_, if_pos hgiven⟩

theorem drain_keeps (f : Firmware) (channel : Channel) :
    (f.drain channel).calls = f.calls ∧ (f.drain channel).accepted = f.accepted := by
  cases channel <;> exact ⟨rfl, rfl⟩

theorem take_keeps (f : Firmware) (channel : Channel) :
    (f.take channel).calls = f.calls ∧ (f.take channel).accepted = f.accepted := by
  cases channel <;> exact ⟨rfl, rfl⟩

@[simp] theorem holds_drain : (f.drain channel).holds channel = none := by
  cases channel with
  | matchQ => rfl
  | semaphore semaphore => simp [Firmware.holds, Firmware.drain]

theorem bindResultErr_quiet (result : Option BindResult) :
    ∀ access ∈ bindResultErr result, access.delivers = false := by
  unfold bindResultErr
  split
  · simp
  · split_ifs <;> simp [Access.delivers]
  · split_ifs <;> simp [Access.delivers]

theorem basicVariable_quiet (var : ReadAttrVariable) :
    ∀ access ∈ basicVariable var, access.delivers = false := by
  unfold basicVariable
  split_ifs <;> simp [Access.delivers]

theorem tempVariable_quiet (var : ReadAttrVariable) :
    ∀ access ∈ tempVariable var, access.delivers = false := by
  unfold tempVariable
  by_cases hstatus : var.status ≠ zclStatusSuccess
  · simp [hstatus]
  · rw [if_neg hstatus]
    split
    · simp [Access.delivers]
    · split_ifs <;> simp [Access.delivers]

/-- The signal is the last thing a callback does. -/
theorem callback_signals_last {answer : Answer} (hchannel : answer.channel = some channel) :
    ∃ body last, answer.callback = body ++ [last] ∧ ∀ access ∈ body, access.delivers = false := by
  cases answer with
  | matched result => exact ⟨[], _, rfl, by simp⟩
  | bound result =>
    refine ⟨.setBindErr (-1) :: bindResultErr result, _, rfl, ?_⟩
    simp only [List.forall_mem_cons]
    exact ⟨rfl, bindResultErr_quiet result⟩
  | attributes message =>
    simp only [Answer.channel, clusterChannel] at hchannel
    simp only [Answer.callback, zclReadAttrRsp]
    split_ifs at hchannel ⊢
    · refine ⟨.clearBasic :: .setBasicErr (zclErr message.status) ::
        message.inVariables.flatMap basicVariable, _, rfl, ?_⟩
      simp only [List.forall_mem_cons]
      exact ⟨rfl, rfl, fun access hmember ↦ by
        obtain ⟨var, -, hvar⟩ := List.mem_flatMap.mp hmember
        exact basicVariable_quiet var access hvar⟩
    · refine ⟨.clearTemp :: .setTempErr (zclErr message.status) ::
        message.inVariables.flatMap tempVariable, _, rfl, ?_⟩
      simp only [List.forall_mem_cons]
      exact ⟨rfl, rfl, fun access hmember ↦ by
        obtain ⟨var, -, hvar⟩ := List.mem_flatMap.mp hmember
        exact tempVariable_quiet var access hvar⟩
  | configured status =>
    refine ⟨.setReportErr (-1) :: if status = some zclStatusSuccess then [.setReportErr 0] else [],
      _, rfl, ?_⟩
    split_ifs <;> simp [Access.delivers]

/-- The first access of a callback leaves nothing of what was in an empty channel. -/
theorem callback_overwrites {answer : Answer} (hchannel : answer.channel = some channel) :
    ∃ first rest, answer.callback = first :: rest ∧ ∀ {f g : Firmware}, f.holds channel = none →
      g.holds channel = none → SameChannel channel (f.access first) (g.access first) := by
  have hgiven {f : Firmware} {semaphore : Semaphore}
      (hempty : f.holds (.semaphore semaphore) = none) : f.given semaphore = false := by
    simpa [Firmware.holds] using hempty
  cases answer with
  | matched result =>
    obtain rfl : .matchQ = channel := Option.some.inj hchannel
    refine ⟨_, _, rfl, fun hf hg ↦ ?_⟩
    exact SameChannel.access (by rw [SameChannel, List.head?_eq_none_iff.mp hf,
      List.head?_eq_none_iff.mp hg]) _
  | bound result =>
    obtain rfl : .semaphore .bindDone = channel := Option.some.inj hchannel
    exact ⟨_, _, rfl, fun hf hg ↦ ⟨(hgiven hf).trans (hgiven hg).symm, rfl⟩⟩
  | attributes message =>
    simp only [Answer.channel, clusterChannel] at hchannel
    simp only [Answer.callback, zclReadAttrRsp]
    split_ifs at hchannel ⊢
    · obtain rfl : .semaphore .basicDone = channel := Option.some.inj hchannel
      exact ⟨_, _, rfl, fun hf hg ↦ ⟨(hgiven hf).trans (hgiven hg).symm, rfl⟩⟩
    · obtain rfl : .semaphore .tempDone = channel := Option.some.inj hchannel
      exact ⟨_, _, rfl, fun hf hg ↦ ⟨(hgiven hf).trans (hgiven hg).symm, rfl⟩⟩
  | configured status =>
    obtain rfl : .semaphore .reportDone = channel := Option.some.inj hchannel
    exact ⟨_, _, rfl, fun hf hg ↦ ⟨(hgiven hf).trans (hgiven hg).symm, rfl⟩⟩

/-- A callback leaves the same in every empty channel. -/
theorem content_replay_callback {answer : Answer} (hchannel : answer.channel = some channel)
    (hempty : f.holds channel = none) :
    (f.replay answer.callback).content channel = answer.outcome := by
  obtain ⟨first, rest, hcallback, hfirst⟩ := callback_overwrites hchannel
  have hsame : SameChannel channel (f.access first) (Firmware.blank.access first) :=
    hfirst hempty (by cases channel <;> rfl)
  rw [Answer.outcome, hchannel, Option.bind_some, hcallback]
  exact (hsame.replay rest).content

end Channels

/-! ### The request functions step by step -/

section Exchange

variable {ε β γ : Type} {channel : Channel} {send : StateM Firmware Int32} {failed : Int32 → β}
  {collect : channel.Item → Prog Firmware ε β}

/-- The last part of `exchange`: wait for the answer, and collect it. -/
def awaitAnswer (channel : Channel) (failed : Int32 → β)
    (collect : channel.Item → Prog Firmware ε β) : Prog Firmware ε β :=
  .query (·.take channel) fun firmware ↦
    match firmware.holds channel with
    | none => .done (failed (-2))
    | some item => collect item

/-- `exchange` without its first step. -/
def sendAndAwait (channel : Channel) (send : StateM Firmware Int32) (failed : Int32 → β)
    (collect : channel.Item → Prog Firmware ε β) : Prog Firmware ε β :=
  .query (fun firmware ↦ (send.run firmware).2) fun firmware ↦
    if (send.run firmware).1 ≠ ezbErrNone then .done (failed (send.run firmware).1)
    else awaitAnswer channel failed collect

theorem exchange_eq : exchange channel send failed collect =
    .query (·.drain channel) fun _ ↦ sendAndAwait channel send failed collect := by
  unfold exchange sendAndAwait awaitAnswer
  simp only [Prog.bind_eq_bind, Prog.lift, Prog.bind]
  refine congrArg₂ Prog.query rfl (funext fun _ ↦ congrArg₂ Prog.query rfl (funext fun f ↦ ?_))
  split_ifs <;> rfl

theorem map_exchange (wrap : β → γ) : wrap <$> exchange channel send failed collect =
    exchange channel send (wrap ∘ failed) fun item ↦ wrap <$> collect item := by
  simp only [exchange_eq, sendAndAwait, awaitAnswer, Prog.map_eq_bind, Prog.bind]
  refine congrArg₂ Prog.query rfl (funext fun _ ↦ congrArg₂ Prog.query rfl (funext fun f ↦ ?_))
  split_ifs
  · rfl
  · refine congrArg₂ Prog.query rfl (funext fun f ↦ ?_)
    dsimp only
    cases f.holds channel <;> rfl

/-- What a call does once it has received its answer: return it, store something elsewhere and
return it, or read it from the variable that goes with the semaphore. -/
inductive Collecting (firmware : Firmware) (channel : Channel) (value : ApiValue) :
    Prog Firmware Empty ApiValue → Prop
  | ended : Collecting firmware channel value (.done value)
  | storing (shortAddr : UInt16) : Collecting firmware channel value
      (.query (fun f ↦ { f with lastSensorAddr := shortAddr }) fun _ ↦ .done value)
  | reading {semaphore : Semaphore} (hchannel : channel = .semaphore semaphore)
      (hcached : firmware.cached semaphore = value) : Collecting firmware channel value
      (.query (fun f ↦ f) fun f ↦ .done (f.cached semaphore))

/-- The error code in the result of a function, for those that return one. -/
def errOf : ApiValue → Option Int32
  | .addr value => some value.err
  | .basic value => some value.err
  | .temp value => some value.err
  | .i32 value => some value
  | _ => none

/-- A request is refused and nothing happens, or it is accepted under the number of the call. -/
def Sends (channel : Channel) (send : StateM Firmware Int32) : Prop :=
  ∀ f, ((send.run f).1 ≠ ezbErrNone ∧ (send.run f).2 = f) ∨
    ((send.run f).1 = ezbErrNone ∧ ∃ request : Request, request.channel = some channel ∧
      (send.run f).2 = { f with accepted := f.accepted ++ [(f.calls, request)] })

/-- The parts of a request function do what their places in `exchange` ask for. -/
structure IsExchange (channel : Channel) (send : StateM Firmware Int32)
    (failed : Int32 → ApiValue) (collect : channel.Item → Prog Firmware Empty ApiValue) : Prop where
  sends : Sends channel send
  timedOut : errOf (failed (-2)) = some (-2)
  collects : ∀ {f : Firmware} {item : channel.Item} {value : ApiValue},
    f.holds channel = some item → f.content channel = some value →
      Collecting (f.take channel) channel value (collect item)

theorem sends_ezbRequest {request : Request} (hchannel : request.channel = some channel) :
    Sends channel (ezbRequest request) := by
  intro f
  rw [ezbRequest_run]
  by_cases herr : f.outside.requestErr = ezbErrNone
  · rw [if_pos herr]
    exact Or.inr ⟨herr, request, hchannel, rfl⟩
  · rw [if_neg herr]
    exact Or.inl ⟨herr, rfl⟩

theorem sends_bindRequest (remoteShort : UInt16) (remoteEp : UInt8) (toLocal : Bool) :
    Sends (.semaphore .bindDone) (bindRequest remoteShort remoteEp toLocal) := by
  intro f
  rcases bindRequest_cases remoteShort remoteEp toLocal f with
      hrun | ⟨dst, srcEp, dstEp, srcAddr, dstAddr, hrun⟩
  · rw [hrun]
    exact Or.inl ⟨by simp [ezbErrNone], rfl⟩
  · rw [hrun]
    exact sends_ezbRequest rfl f

/-- A function that waits on a semaphore and returns the variable that goes with it. -/
theorem isExchange_semaphore {semaphore : Semaphore} {send : StateM Firmware Int32}
    {failed : Int32 → ApiValue} (hsends : Sends (.semaphore semaphore) send)
    (htimedOut : errOf (failed (-2)) = some (-2)) :
    IsExchange (.semaphore semaphore) send failed fun _ ↦ readVariable (·.cached semaphore) where
  sends := hsends
  timedOut := htimedOut
  collects := by
    intro f item value hholds hcontent
    have hgiven : f.given semaphore = true := by
      by_contra hnot
      simp [Firmware.holds, hnot] at hholds
    refine .reading rfl ?_
    have hcached : (f.take (.semaphore semaphore)).cached semaphore = f.cached semaphore := by
      cases semaphore <;> rfl
    rw [hcached]
    simpa [Firmware.content, hgiven] using hcontent

theorem isExchange_findSensor (shortAddr : UInt16) :
    IsExchange .matchQ
      (ezbRequest (.matchDesc shortAddr shortAddr haProfileId [clusterTemperature]))
      (ApiValue.addr ∘ fun err ↦ ⟨err, 0, 0⟩)
      fun out ↦ ApiValue.addr <$> rememberSensor out where
  sends := sends_ezbRequest rfl
  timedOut := rfl
  collects := by
    intro f out value hholds hcontent
    obtain rfl : ApiValue.addr out = value := by
      have hhead : f.matchQ.head? = some out := hholds
      rw [Firmware.content, hhead] at hcontent
      exact Option.some.inj hcontent
    by_cases herr : out.err = 0
    · rw [rememberSensor, if_pos herr]
      exact .storing out.shortAddr
    · rw [rememberSensor, if_neg herr]
      exact .ended

/-- How the call of a function begins. -/
inductive Opening (call : ApiCall) (passed : ℕ) : Prog Firmware Empty ApiValue → Prop
  /-- A function that makes no request. -/
  | asking {update : Firmware → Firmware} {value : Firmware → ApiValue}
      (hkeeps : ∀ f, (update f).calls = f.calls ∧ (update f).accepted = f.accepted) :
      Opening call passed (.query update fun f ↦ .done (value f))
  | allocating {channel : Channel} {send : StateM Firmware Int32} {failed : Int32 → ApiValue}
      {collect : channel.Item → Prog Firmware Empty ApiValue} {refused : ApiValue}
      (hexchange : IsExchange channel send failed collect)
      (hchannel : channelOf call = some channel) (hpassed : passed + 2 = drainedAt call) :
      Opening call passed (.query (fun f ↦ f) fun f ↦
        if f.outside.memory then exchange channel send failed collect else .done refused)
  | draining {channel : Channel} {send : StateM Firmware Int32} {failed : Int32 → ApiValue}
      {collect : channel.Item → Prog Firmware Empty ApiValue}
      (hexchange : IsExchange channel send failed collect)
      (hchannel : channelOf call = some channel) (hpassed : passed + 1 = drainedAt call) :
      Opening call passed
        (.query (·.drain channel) fun _ ↦ sendAndAwait channel send failed collect)

theorem opening_bindCommon {call : ApiCall} (remoteShort : UInt16) (remoteEp : UInt8)
    (toLocal : Bool) (timeoutMs : UInt32) (hchannel : channelOf call = some (.semaphore .bindDone))
    (hdrained : drainedAt call = 2) :
    Opening call 0 (ApiValue.i32 <$> zigbeeBindCommon remoteShort remoteEp toLocal timeoutMs) := by
  have hprog : (ApiValue.i32 <$> zigbeeBindCommon remoteShort remoteEp toLocal timeoutMs :
      Prog Firmware Empty ApiValue) = .query (fun f ↦ f) fun f ↦
        if f.outside.memory then
          exchange (.semaphore .bindDone) (bindRequest remoteShort remoteEp toLocal) ApiValue.i32
            fun _ ↦ readVariable (·.cached .bindDone)
        else .done (.i32 (-1)) := by
    refine congrArg₂ Prog.query rfl (funext fun f ↦ ?_)
    show Prog.bind (if (!f.outside.memory) = true then _ else _) _ = _
    cases f.outside.memory with
    | true => exact map_exchange ApiValue.i32
    | false => rfl
  rw [hprog]
  exact .allocating (isExchange_semaphore (sends_bindRequest _ _ _) rfl) hchannel hdrained.symm

theorem opening_perform (call : ApiCall) : Opening call 0 (zigbeeApi.perform call) := by
  cases call with
  | findSensor shortAddr timeoutMs =>
    show Opening _ 0 (ApiValue.addr <$> zigbeeFindSensor shortAddr timeoutMs)
    rw [zigbeeFindSensor, map_exchange, exchange_eq]
    exact .draining (isExchange_findSensor shortAddr) rfl rfl
  | readBasic shortAddr ep timeoutMs =>
    show Opening _ 0 (ApiValue.basic <$> zigbeeReadBasic shortAddr ep timeoutMs)
    rw [zigbeeReadBasic, map_exchange, exchange_eq]
    exact .draining (isExchange_semaphore (sends_ezbRequest rfl) rfl) rfl rfl
  | bindSensor shortAddr ep timeoutMs => exact opening_bindCommon _ _ _ timeoutMs rfl rfl
  | subscribeSensor shortAddr ep timeoutMs => exact opening_bindCommon _ _ _ timeoutMs rfl rfl
  | configReport shortAddr ep timeoutMs =>
    show Opening _ 0 (ApiValue.i32 <$> zigbeeConfigReport shortAddr ep timeoutMs)
    rw [zigbeeConfigReport, map_exchange, exchange_eq]
    exact .draining (isExchange_semaphore (sends_ezbRequest rfl) rfl) rfl rfl
  | readTemp shortAddr ep timeoutMs =>
    show Opening _ 0 (ApiValue.temp <$> zigbeeReadTemp shortAddr ep timeoutMs)
    rw [zigbeeReadTemp, map_exchange, exchange_eq]
    exact .draining (isExchange_semaphore (sends_ezbRequest rfl) rfl) rfl rfl
  | _ => exact .asking fun f ↦ ⟨rfl, rfl⟩

end Exchange

/-! ### The two tasks -/

/-- A call of the RPC task: what is left of its program, and how many steps it has made. -/
structure RpcCall where
  call : ApiCall
  passed : ℕ
  prog : Prog Firmware Empty ApiValue

/-- The call has emptied the given channel. -/
def RpcCall.drained (task : RpcCall) (channel : Channel) : Bool :=
  decide (channelOf task.call = some channel ∧ drainedAt task.call ≤ task.passed)

/-- The state of the two tasks. The Zigbee task is in a callback while it has accesses to make;
`answering` is the number of the call whose request the callback answers. -/
structure System where
  firmware : Firmware
  rpcTask : Option RpcCall
  zigbeeTask : List Access
  answering : Option ℕ
  answers : List (ℕ × Answer)

def System.initial (outside : Surroundings) : System := ⟨.initial outside, none, [], none, []⟩

/-- The steps of the system. -/
inductive Happening : Type
  /-- The RPC task calls a function. -/
  | call (call : ApiCall)
  /-- The function goes on. -/
  | proceed
  /-- The function returns. -/
  | returns
  /-- The Zigbee task calls the callback for an answer. -/
  | answer (number : ℕ) (answer : Answer)
  /-- The Zigbee task calls another callback. -/
  | notice (notice : Notice)
  /-- The callback goes on. -/
  | callback
  /-- The surroundings change. -/
  | outside (outside : Surroundings)

/-- One step; `none` where it is not possible. -/
def System.next (system : System) : Happening → Option System
  | .call call =>
    if system.rpcTask.isNone then
      some { system with
        firmware := { system.firmware with calls := system.firmware.calls + 1 }
        rpcTask := some ⟨call, 0, zigbeeApi.perform call⟩ }
    else none
  | .proceed =>
    match system.rpcTask with
    | some ⟨call, passed, .query update next⟩ =>
      some { system with
        firmware := update system.firmware
        rpcTask := some ⟨call, passed + 1, next system.firmware⟩ }
    | _ => none
  | .returns =>
    match system.rpcTask with
    | some ⟨_, _, .done _⟩ => some { system with rpcTask := none }
    | _ => none
  | .answer number answer =>
    if system.zigbeeTask.isEmpty ∧ (∀ entry ∈ system.answers, entry.1 ≠ number) ∧
        ∃ entry ∈ system.firmware.accepted, entry.1 = number ∧ entry.2.channel = answer.channel then
      some { system with
        zigbeeTask := answer.callback
        answering := some number
        answers := system.answers ++ [(number, answer)] }
    else none
  | .notice notice =>
    if system.zigbeeTask.isEmpty then
      some { system with zigbeeTask := notice.callback, answering := none }
    else none
  | .callback =>
    match system.zigbeeTask with
    | [] => none
    | access :: rest =>
      if access = .fault then none
      else some { system with firmware := system.firmware.access access, zigbeeTask := rest }
  | .outside outside => some { system with firmware := { system.firmware with outside := outside } }

/-- One step as a relation. -/
def System.Step (before : System) (label : Happening) (after : System) : Prop :=
  before.next label = some after

theorem System.reachable_of_execute (ok : System → Happening → Bool) (start : System)
    {finish : System} (labels : List Happening) (hexecute : execute System.next ok start labels = some finish) :
    Reachable (restrict System.Step fun system label ↦ ok system label = true) start finish :=
  .of_execute id ok labels (.refl start) hexecute

/-- No callback for an earlier request touches a channel that the current call has emptied. -/
def noLateAnswer (system : System) : Happening → Bool
  | .callback =>
    match system.rpcTask, system.zigbeeTask with
    | some task, access :: _ =>
      match access.channel with
      | some channel =>
        !(task.drained channel) || decide (system.answering = some system.firmware.calls)
      | none => true
    | _, _ => true
  | _ => true

/-! ### Whose answer a call returns -/

section OwnResponse

variable {outside : Surroundings} {system before after : System} {task : RpcCall} {label : Happening}

/-- The request of the current call has not been accepted. -/
def System.Unsent (system : System) : Prop :=
  ∀ request, (system.firmware.calls, request) ∉ system.firmware.accepted

/-- The current call has been answered, and the callback for its answer is over. -/
structure Received (system : System) (answer : Answer) : Prop where
  answered : (system.firmware.calls, answer) ∈ system.answers
  idle : system.answering = some system.firmware.calls → system.zigbeeTask = []

/-- What a call that waits can find in its channel: nothing yet, or its own answer. -/
inductive Mail (system : System) (channel : Channel) : Prop
  | unanswered (hempty : system.firmware.holds channel = none)
      (hnone : ∀ answer, (system.firmware.calls, answer) ∉ system.answers)
  | arriving {answer : Answer} {body : List Access} {last : Access}
      (hanswer : (system.firmware.calls, answer) ∈ system.answers)
      (htask : system.zigbeeTask = body ++ [last])
      (hquiet : ∀ access ∈ body, access.delivers = false)
      (hempty : system.firmware.holds channel = none)
      (houtcome : (system.firmware.replay system.zigbeeTask).content channel = answer.outcome)
  | arrived {answer : Answer} (hreceived : Received system answer)
      (hcontent : system.firmware.content channel = answer.outcome)

/-- How far a call has come. -/
inductive Stage (system : System) (task : RpcCall) : Prop
  | opening (hunsent : system.Unsent) (hopening : Opening task.call task.passed task.prog)
  | sending {channel : Channel} {send : StateM Firmware Int32} {failed : Int32 → ApiValue}
      {collect : channel.Item → Prog Firmware Empty ApiValue}
      (hexchange : IsExchange channel send failed collect) (hdrained : task.drained channel = true)
      (hunsent : system.Unsent) (hempty : system.firmware.holds channel = none)
      (hprog : task.prog = sendAndAwait channel send failed collect)
  | waiting {channel : Channel} {send : StateM Firmware Int32} {failed : Int32 → ApiValue}
      {collect : channel.Item → Prog Firmware Empty ApiValue}
      (hexchange : IsExchange channel send failed collect) (hdrained : task.drained channel = true)
      (hsent : ∀ request, (system.firmware.calls, request) ∈ system.firmware.accepted →
        request.channel = some channel)
      (hmail : Mail system channel) (hprog : task.prog = awaitAnswer channel failed collect)
  | collecting {channel : Channel} {answer : Answer} {value : ApiValue}
      (hdrained : task.drained channel = true) (hreceived : Received system answer)
      (houtcome : answer.outcome = some value)
      (hcollecting : Collecting system.firmware channel value task.prog)
  | failed {value : ApiValue} (hprog : task.prog = .done value)
      (hfailed : system.Unsent ∨ errOf value = some (-2))

/-- Accepted requests have the numbers of calls made, answers belong to accepted requests, and the
current call is at one of its stages. -/
structure OwnAnswers (system : System) : Prop where
  numbered : ∀ entry ∈ system.firmware.accepted, entry.1 ≤ system.firmware.calls
  known : ∀ entry ∈ system.answers, ∃ request, (entry.1, request) ∈ system.firmware.accepted
  answering : ∀ number, system.answering = some number → ∃ answer, (number, answer) ∈ system.answers
  stage : ∀ task, system.rpcTask = some task → Stage system task

theorem OwnAnswers.initial : OwnAnswers (.initial outside) where
  numbered := fun entry hentry ↦ by simp [System.initial, Firmware.initial] at hentry
  known := fun entry hentry ↦ by simp [System.initial] at hentry
  answering := fun number hnumber ↦ by simp [System.initial] at hnumber
  stage := fun task htask ↦ by simp [System.initial] at htask

/-- A call that has sent nothing has not been answered. -/
theorem OwnAnswers.unanswered (hown : OwnAnswers system) (hunsent : system.Unsent)
    (answer : Answer) : (system.firmware.calls, answer) ∉ system.answers := by
  intro hanswer
  obtain ⟨request, hrequest⟩ := hown.known _ hanswer
  exact hunsent request hrequest

theorem RpcCall.drained_next {passed : ℕ} {call : ApiCall} {prog next : Prog Firmware Empty ApiValue}
    {channel : Channel} (hdrained : RpcCall.drained ⟨call, passed, prog⟩ channel = true) :
    RpcCall.drained ⟨call, passed + 1, next⟩ channel = true := by
  simp only [RpcCall.drained, decide_eq_true_eq] at hdrained ⊢
  exact ⟨hdrained.1, Nat.le_succ_of_le hdrained.2⟩

/-- A step of the RPC task that accepts at most the request of the current call. -/
theorem OwnAnswers.of_firmware (hown : OwnAnswers before) {firmware : Firmware}
    {rpcTask : Option RpcCall} (hcalls : firmware.calls = before.firmware.calls)
    (haccepted : firmware.accepted = before.firmware.accepted ∨
      ∃ request, firmware.accepted =
        before.firmware.accepted ++ [(before.firmware.calls, request)])
    (hstage : ∀ task, rpcTask = some task →
      Stage { before with firmware := firmware, rpcTask := rpcTask } task) :
    OwnAnswers { before with firmware := firmware, rpcTask := rpcTask } := by
  have hold : ∀ entry ∈ before.firmware.accepted, entry ∈ firmware.accepted := by
    intro entry hentry
    rcases haccepted with hsame | ⟨request, hmore⟩
    · rwa [hsame]
    · rw [hmore]
      exact List.mem_append_left _ hentry
  refine ⟨fun entry hentry ↦ ?_, fun entry hentry ↦ ?_, hown.answering, hstage⟩
  · show entry.1 ≤ firmware.calls
    rw [hcalls]
    rcases haccepted with hsame | ⟨request, hmore⟩
    · exact hown.numbered entry (hsame ▸ hentry)
    · rcases List.mem_append.mp (hmore ▸ hentry) with hknown | hnew
      · exact hown.numbered entry hknown
      · exact Nat.le_of_eq (congrArg Prod.fst (List.mem_singleton.mp hnew))
  · obtain ⟨request, hrequest⟩ := hown.known entry hentry
    exact ⟨request, hold _ hrequest⟩

/-- The current call goes on before its request. -/
theorem OwnAnswers.proceed_opening (hown : OwnAnswers before) {call : ApiCall} {passed : ℕ}
    {update : Firmware → Firmware} {next : Firmware → Prog Firmware Empty ApiValue}
    (hunsent : before.Unsent) (hopening : Opening call passed (.query update next)) :
    OwnAnswers { before with
      firmware := update before.firmware
      rpcTask := some ⟨call, passed + 1, next before.firmware⟩ } := by
  generalize hprog : Prog.query update next = prog at hopening
  cases hopening with
  | asking hkeeps =>
    obtain ⟨rfl, rfl⟩ := Prog.query.inj hprog
    obtain ⟨hcalls, haccepted⟩ := hkeeps before.firmware
    refine hown.of_firmware hcalls (Or.inl haccepted) ?_
    rintro _ ⟨⟩
    exact .failed rfl (Or.inl (by simpa [System.Unsent, hcalls, haccepted] using hunsent))
  | allocating hexchange hchannel hpassed =>
    obtain ⟨rfl, rfl⟩ := Prog.query.inj hprog
    refine hown.of_firmware rfl (Or.inl rfl) ?_
    rintro _ ⟨⟩
    cases hmemory : before.firmware.outside.memory with
    | true =>
      refine .opening hunsent ?_
      simp only [hmemory, if_true, exchange_eq]
      exact .draining hexchange hchannel (by rw [← hpassed])
    | false => exact .failed (if_neg (by simp [hmemory])) (Or.inl hunsent)
  | @draining channel send failed collect hexchange hchannel hpassed =>
    obtain ⟨rfl, rfl⟩ := Prog.query.inj hprog
    have hkeeps := drain_keeps before.firmware channel
    refine hown.of_firmware hkeeps.1 (Or.inl hkeeps.2) ?_
    rintro _ ⟨⟩
    refine .sending hexchange ?_ ?_ holds_drain rfl
    · simp [RpcCall.drained, hchannel, ← hpassed]
    · simpa [System.Unsent, hkeeps] using hunsent

/-- The current call makes its request. -/
theorem OwnAnswers.proceed_sending (hown : OwnAnswers before) {call : ApiCall} {passed : ℕ}
    {channel : Channel} {send : StateM Firmware Int32} {failed : Int32 → ApiValue}
    {collect : channel.Item → Prog Firmware Empty ApiValue}
    (hexchange : IsExchange channel send failed collect)
    (hdrained : RpcCall.drained ⟨call, passed, sendAndAwait channel send failed collect⟩ channel = true)
    (hunsent : before.Unsent) (hempty : before.firmware.holds channel = none) :
    OwnAnswers { before with
      firmware := (send.run before.firmware).2
      rpcTask := some ⟨call, passed + 1,
        if (send.run before.firmware).1 ≠ ezbErrNone then .done (failed (send.run before.firmware).1)
        else awaitAnswer channel failed collect⟩ } := by
  rcases hexchange.sends before.firmware with ⟨herr, hafter⟩ | ⟨herr, request, hchannel, hafter⟩
  · simp only [hafter, if_pos herr]
    refine hown.of_firmware rfl (Or.inl rfl) ?_
    rintro _ ⟨⟩
    exact .failed rfl (Or.inl hunsent)
  · simp only [hafter, if_neg (not_not.mpr herr)]
    refine hown.of_firmware rfl (Or.inr ⟨request, rfl⟩) ?_
    rintro _ ⟨⟩
    refine .waiting hexchange (RpcCall.drained_next hdrained) ?_
      (.unanswered ?_ (hown.unanswered hunsent)) rfl
    · intro other hother
      rcases List.mem_append.mp hother with hearlier | hnew
      · exact absurd hearlier (hunsent other)
      · obtain ⟨-, rfl⟩ := Prod.mk.inj (List.mem_singleton.mp hnew)
        exact hchannel
    · exact (sameChannel_with _ _ _ _).holds.trans hempty

/-- The current call goes on. -/
theorem OwnAnswers.proceed (hown : OwnAnswers before)
    {call : ApiCall} {passed : ℕ} {update : Firmware → Firmware}
    {next : Firmware → Prog Firmware Empty ApiValue}
    (htask : before.rpcTask = some ⟨call, passed, .query update next⟩) :
    OwnAnswers { before with
      firmware := update before.firmware
      rpcTask := some ⟨call, passed + 1, next before.firmware⟩ } := by
  cases hown.stage _ htask with
  | opening hunsent hopening => exact hown.proceed_opening hunsent hopening
  | @sending channel send failed collect hexchange hdrained hunsent hempty hprog =>
    obtain ⟨rfl, rfl⟩ := Prog.query.inj hprog
    exact hown.proceed_sending hexchange hdrained hunsent hempty
  | @waiting channel send failed collect hexchange hdrained hsent hmail hprog =>
    obtain ⟨rfl, rfl⟩ := Prog.query.inj hprog
    have hkeeps := take_keeps before.firmware channel
    refine hown.of_firmware hkeeps.1 (Or.inl hkeeps.2) ?_
    rintro _ ⟨⟩
    cases hholds : before.firmware.holds channel with
    | none => exact .failed (by simp [hholds]) (Or.inr hexchange.timedOut)
    | some item =>
      obtain ⟨value, hvalue⟩ := exists_content hholds
      cases hmail with
      | unanswered hempty hnone => simp [hempty] at hholds
      | arriving hanswer htask hquiet hempty houtcome => simp [hempty] at hholds
      | arrived hreceived hcontent =>
        refine .collecting (RpcCall.drained_next hdrained) ⟨?_, ?_⟩ (hcontent ▸ hvalue) ?_
        · simpa [hkeeps] using hreceived.answered
        · simpa [hkeeps] using hreceived.idle
        · simpa [hholds] using hexchange.collects hholds hvalue
  | collecting hdrained hreceived houtcome hcollecting =>
    generalize hprog : Prog.query update next = prog at hcollecting
    cases hcollecting with
    | ended => simp at hprog
    | storing shortAddr =>
      obtain ⟨rfl, rfl⟩ := Prog.query.inj hprog
      refine hown.of_firmware rfl (Or.inl rfl) ?_
      rintro _ ⟨⟩
      exact .collecting (RpcCall.drained_next hdrained) ⟨hreceived.answered, hreceived.idle⟩ houtcome
        .ended
    | reading hchannel hcached =>
      obtain ⟨rfl, rfl⟩ := Prog.query.inj hprog
      refine hown.of_firmware rfl (Or.inl rfl) ?_
      rintro _ ⟨⟩
      obtain rfl := hcached
      exact .collecting (RpcCall.drained_next hdrained) ⟨hreceived.answered, hreceived.idle⟩ houtcome
        .ended
  | failed hprog hfailed => simp at hprog

/-- A step of the Zigbee task or the surroundings. -/
theorem Stage.of_same (hstage : Stage before task)
    (hcalls : after.firmware.calls = before.firmware.calls)
    (haccepted : after.firmware.accepted = before.firmware.accepted)
    (hsame : ∀ {channel}, task.drained channel = true →
      (before.Unsent ∨ ∃ answer, Received before answer) →
        SameChannel channel after.firmware before.firmware)
    (hmail : ∀ {channel}, task.drained channel = true →
      (∀ request, (before.firmware.calls, request) ∈ before.firmware.accepted →
        request.channel = some channel) → Mail before channel → Mail after channel)
    (hreceived : ∀ {answer}, Received before answer → Received after answer) :
    Stage after task := by
  have hunsent : before.Unsent → after.Unsent := by
    intro h request
    rw [hcalls, haccepted]
    exact h request
  cases hstage with
  | opening h hopening => exact .opening (hunsent h) hopening
  | sending hexchange hdrained h hempty hprog =>
    exact .sending hexchange hdrained (hunsent h)
      ((hsame hdrained (Or.inl h)).holds.trans hempty) hprog
  | waiting hexchange hdrained hsent h hprog =>
    exact .waiting hexchange hdrained (hcalls ▸ haccepted ▸ hsent) (hmail hdrained hsent h) hprog
  | collecting hdrained h houtcome hcollecting =>
    have hchannel := hsame hdrained (Or.inr ⟨_, h⟩)
    refine .collecting hdrained (hreceived h) houtcome ?_
    generalize task.prog = prog at hcollecting ⊢
    cases hcollecting with
    | ended => exact .ended
    | storing shortAddr => exact .storing shortAddr
    | reading hsemaphore hcached =>
      subst hsemaphore
      exact .reading rfl (hchannel.2.trans hcached)
  | failed hprog hfailed => exact .failed hprog (hfailed.imp hunsent id)

/-- The Zigbee task takes up an answer. -/
theorem OwnAnswers.answer (hown : OwnAnswers before) {number : ℕ} {answer : Answer}
    (hidle : before.zigbeeTask = []) (hfirst : ∀ entry ∈ before.answers, entry.1 ≠ number)
    {request : Request} (hrequest : (number, request) ∈ before.firmware.accepted)
    (hchannel : request.channel = answer.channel) :
    OwnAnswers { before with
      zigbeeTask := answer.callback
      answering := some number
      answers := before.answers ++ [(number, answer)] } := by
  have hreceived {other : Answer} (h : Received before other) :
      Received { before with
        zigbeeTask := answer.callback
        answering := some number
        answers := before.answers ++ [(number, answer)] } other := by
    refine ⟨List.mem_append_left _ h.answered, fun hnumber ↦ ?_⟩
    exact absurd (Option.some.inj hnumber).symm (hfirst _ h.answered)
  refine ⟨hown.numbered, fun entry hentry ↦ ?_, fun other hother ↦ ?_, fun task htask ↦ ?_⟩
  · rcases List.mem_append.mp hentry with hknown | hnew
    · exact hown.known entry hknown
    · rw [List.mem_singleton.mp hnew]
      exact ⟨request, hrequest⟩
  · obtain rfl := Option.some.inj hother
    exact ⟨answer, by simp⟩
  · refine (hown.stage task htask).of_same rfl rfl (fun _ _ ↦ .refl) ?_ hreceived
    intro channel hdrained hsent hmail
    cases hmail with
    | unanswered hempty hnone =>
      by_cases hnumber : number = before.firmware.calls
      · subst hnumber
        have hanswer : answer.channel = some channel := hchannel ▸ hsent request hrequest
        obtain ⟨body, last, hcallback, hquiet⟩ := callback_signals_last hanswer
        exact .arriving (List.mem_append_right _ (List.mem_singleton_self _)) hcallback hquiet hempty
          (content_replay_callback hanswer hempty)
      · refine .unanswered hempty fun other hother ↦ ?_
        rcases List.mem_append.mp hother with hknown | hnew
        · exact hnone other hknown
        · exact hnumber (Prod.mk.inj (List.mem_singleton.mp hnew)).1.symm
    | arriving hanswer htask hquiet hempty houtcome => simp [hidle] at htask
    | arrived h hcontent => exact .arrived (hreceived h) hcontent

/-- The Zigbee task takes up a notice. -/
theorem OwnAnswers.notice (hown : OwnAnswers before) {accesses : List Access}
    (hidle : before.zigbeeTask = []) :
    OwnAnswers { before with zigbeeTask := accesses, answering := none } := by
  have hreceived {answer : Answer} (h : Received before answer) :
      Received { before with zigbeeTask := accesses, answering := none } answer :=
    ⟨h.answered, fun hnone ↦ by simp at hnone⟩
  refine ⟨hown.numbered, hown.known, fun number hnumber ↦ by simp at hnumber, fun task htask ↦ ?_⟩
  refine (hown.stage task htask).of_same rfl rfl (fun _ _ ↦ .refl) ?_ hreceived
  intro channel hdrained hsent hmail
  cases hmail with
  | unanswered hempty hnone => exact .unanswered hempty hnone
  | arriving hanswer htask hquiet hempty houtcome => simp [hidle] at htask
  | arrived h hcontent => exact .arrived (hreceived h) hcontent

/-- A callback goes on. -/
theorem OwnAnswers.callback (hown : OwnAnswers before) {access : Access} {rest : List Access}
    (hbusy : before.zigbeeTask = access :: rest)
    (hlate : noLateAnswer before .callback = true) :
    OwnAnswers { before with
      firmware := before.firmware.access access
      zigbeeTask := rest } := by
  have hreceived {answer : Answer} (h : Received before answer) :
      Received { before with firmware := before.firmware.access access, zigbeeTask := rest }
        answer := by
    refine ⟨by simpa using h.answered, fun hnumber ↦ ?_⟩
    have hidle := h.idle (by simpa using hnumber)
    simp [hbusy] at hidle
  refine ⟨by simpa using hown.numbered, by simpa using hown.known, hown.answering,
    fun task htask ↦ ?_⟩
  -- An access to the channel of the call is made by the callback for the call's own answer.
  have hours {channel : Channel} (hdrained : task.drained channel = true)
      (haccess : access.channel = some channel) :
      before.answering = some before.firmware.calls := by
    have hcall : before.rpcTask = some task := htask
    simpa [noLateAnswer, hcall, hbusy, haccess, hdrained] using hlate
  have hother {channel : Channel} (hdrained : task.drained channel = true)
      (h : before.answering ≠ some before.firmware.calls) :
      SameChannel channel (before.firmware.access access) before.firmware :=
    sameChannel_access fun haccess ↦ h (hours hdrained haccess)
  refine (hown.stage task htask).of_same (calls_access access) (accepted_access access) ?_ ?_
    hreceived
  · intro channel hdrained h
    refine hother hdrained fun hnumber ↦ ?_
    rcases h with hunsent | ⟨answer, h⟩
    · obtain ⟨answer, hanswer⟩ := hown.answering _ hnumber
      exact hown.unanswered hunsent answer hanswer
    · simp [h.idle hnumber] at hbusy
  · intro channel hdrained hsent hmail
    cases hmail with
    | unanswered hempty hnone =>
      have hsame := hother hdrained fun hnumber ↦ by
        obtain ⟨answer, hanswer⟩ := hown.answering _ hnumber
        exact hnone answer hanswer
      exact .unanswered (hsame.holds.trans hempty) (by simpa using hnone)
    | @arriving answer body last hanswer htask hquiet hempty houtcome =>
      rw [hbusy] at htask houtcome
      cases body with
      | nil =>
        obtain ⟨rfl, rfl⟩ := List.cons.inj htask
        exact .arrived ⟨by simpa using hanswer, fun _ ↦ rfl⟩ houtcome
      | cons first body =>
        obtain ⟨rfl, rfl⟩ := List.cons.inj htask
        exact .arriving (by simpa using hanswer) rfl
          (fun other hother ↦ hquiet other (List.mem_cons_of_mem _ hother))
          ((holds_access (hquiet _ List.mem_cons_self)).trans hempty) houtcome
    | arrived h hcontent =>
      have hsame := hother hdrained fun hnumber ↦ by simp [h.idle hnumber] at hbusy
      exact .arrived (hreceived h) (hsame.content.trans hcontent)

/-- The surroundings change. -/
theorem OwnAnswers.surroundings (hown : OwnAnswers before) (outside : Surroundings) :
    OwnAnswers { before with firmware := { before.firmware with outside := outside } } := by
  have hsame {channel : Channel} :
      SameChannel channel { before.firmware with outside := outside } before.firmware :=
    sameChannel_with _ _ _ _
  refine ⟨hown.numbered, hown.known, hown.answering, fun task htask ↦ ?_⟩
  refine (hown.stage task htask).of_same rfl rfl (fun _ _ ↦ hsame) ?_
    fun h ↦ ⟨h.answered, h.idle⟩
  intro channel hdrained hsent hmail
  cases hmail with
  | unanswered hempty hnone => exact .unanswered (hsame.holds.trans hempty) hnone
  | arriving hanswer htask hquiet hempty houtcome =>
    exact .arriving hanswer htask hquiet (hsame.holds.trans hempty)
      ((hsame.replay before.zigbeeTask).content.trans houtcome)
  | arrived h hcontent => exact .arrived ⟨h.answered, h.idle⟩ (hsame.content.trans hcontent)

/-- The RPC task calls a function. -/
theorem OwnAnswers.call (hown : OwnAnswers before) (call : ApiCall) :
    OwnAnswers { before with
      firmware := { before.firmware with calls := before.firmware.calls + 1 }
      rpcTask := some ⟨call, 0, zigbeeApi.perform call⟩ } := by
  refine ⟨fun entry hentry ↦ Nat.le_succ_of_le (hown.numbered entry hentry), hown.known,
    hown.answering, ?_⟩
  rintro _ ⟨⟩
  refine .opening (fun request hrequest ↦ ?_) (opening_perform call)
  exact Nat.not_succ_le_self _ (hown.numbered _ hrequest)

theorem OwnAnswers.step (hown : OwnAnswers before) (hstep : before.Step label after)
    (hlate : noLateAnswer before label = true) : OwnAnswers after := by
  unfold System.Step System.next at hstep
  cases label with
  | call call =>
    simp only at hstep
    split_ifs at hstep
    exact Option.some.inj hstep ▸ hown.call call
  | proceed =>
    simp only at hstep
    split at hstep
    · rename_i htask
      exact Option.some.inj hstep ▸ hown.proceed htask
    · simp at hstep
  | returns =>
    simp only at hstep
    split at hstep
    · rw [← Option.some.inj hstep]
      exact ⟨hown.numbered, hown.known, hown.answering, fun task htask ↦ by simp at htask⟩
    · simp at hstep
  | answer number answer =>
    simp only at hstep
    split_ifs at hstep with hready
    obtain ⟨hidle, hfirst, ⟨_, request⟩, hrequest, rfl, hchannel⟩ := hready
    exact Option.some.inj hstep ▸
      hown.answer (List.isEmpty_iff.mp hidle) hfirst hrequest hchannel
  | notice notice =>
    simp only at hstep
    split_ifs at hstep with hidle
    exact Option.some.inj hstep ▸ hown.notice (List.isEmpty_iff.mp hidle)
  | callback =>
    simp only at hstep
    split at hstep
    · simp at hstep
    · rename_i hbusy
      split_ifs at hstep
      exact Option.some.inj hstep ▸ hown.callback hbusy hlate
  | outside outside => exact Option.some.inj hstep ▸ hown.surroundings outside

/-- A call returns the answer to its own request: what a function is about to return, when its
request was accepted and it has not timed out, is what the answer to that request carries. Assumes:
no callback for an earlier request touches the channel of a call that has emptied it and not
returned. -/
theorem own_response
    (hreach : Reachable (restrict System.Step fun system label ↦ noLateAnswer system label = true)
      (.initial outside) system)
    {call : ApiCall} {passed : ℕ} {value : ApiValue}
    (htask : system.rpcTask = some ⟨call, passed, .done value⟩)
    (hsent : ∃ request, (system.firmware.calls, request) ∈ system.firmware.accepted)
    (htimeout : errOf value ≠ some (-2)) :
    ∃ answer, (system.firmware.calls, answer) ∈ system.answers ∧ answer.outcome = some value := by
  have hown : OwnAnswers system :=
    hreach.invariant .initial fun _ _ _ hbefore hstep ↦ hbefore.step hstep.1 hstep.2
  cases hown.stage _ htask with
  | opening hunsent hopening =>
    obtain ⟨request, hrequest⟩ := hsent
    exact absurd hrequest (hunsent request)
  | sending hexchange hdrained hunsent hempty hprog => simp [sendAndAwait] at hprog
  | waiting hexchange hdrained haccepted hmail hprog => simp [awaitAnswer] at hprog
  | collecting hdrained hreceived houtcome hcollecting =>
    cases hcollecting with
    | ended => exact ⟨_, hreceived.answered, houtcome⟩
  | failed hprog hfailed =>
    obtain rfl := Prog.done.inj hprog
    rcases hfailed with hunsent | herr
    · obtain ⟨request, hrequest⟩ := hsent
      exact absurd hrequest (hunsent request)
    · exact absurd herr htimeout

/-- A response of a sensor that measures 21.50 degrees. -/
def warmResponse : ReadAttrRspMessage :=
  ⟨clusterTemperature, zclStatusSuccess, [⟨zclStatusSuccess, attrMeasuredValue, some [0x66, 0x08]⟩]⟩

theorem own_response_warm :
    ∃ system, Reachable
        (restrict System.Step fun system label ↦ noLateAnswer system label = true)
        (.initial Firmware.blank.outside) system ∧
      ∃ answer, (system.firmware.calls, answer) ∈ system.answers ∧
        answer.outcome = some (.temp ⟨0, 2150, 0, 0, 0⟩) := by
  have hreach := System.reachable_of_execute noLateAnswer (.initial Firmware.blank.outside)
    [.call (.readTemp 1 1 15000), .proceed, .proceed, .answer 1 (.attributes warmResponse),
      .callback, .callback, .callback, .callback, .callback, .proceed, .proceed] rfl
  exact ⟨_, hreach, own_response hreach rfl ⟨_, List.mem_singleton_self _⟩ (by decide)⟩

/-- Device 1 is asked for its temperature and does not answer in time. Its answer comes while device
2 is being asked, and is returned as the temperature of device 2. -/
theorem late_response :
    ∃ system passed, Reachable System.Step (.initial Firmware.blank.outside) system ∧
      system.rpcTask = some ⟨.readTemp 2 1 15000, passed, .done (.temp ⟨0, 2150, 0, 0, 0⟩)⟩ ∧
      (∃ request, (system.firmware.calls, request) ∈ system.firmware.accepted) ∧
      ∀ answer, (system.firmware.calls, answer) ∉ system.answers := by
  have hreach := System.reachable_of_execute (fun _ _ ↦ true) (.initial Firmware.blank.outside)
    [.call (.readTemp 1 1 15000), .proceed, .proceed, .proceed, .returns,
      .call (.readTemp 2 1 15000), .proceed, .proceed, .answer 1 (.attributes warmResponse),
      .callback, .callback, .callback, .callback, .callback, .proceed, .proceed] rfl
  refine ⟨_, _, hreach.of_restrict, rfl, ⟨_, List.mem_cons_of_mem _ (List.mem_singleton_self _)⟩,
    fun answer hanswer ↦ ?_⟩
  have honly : (2, answer) ∈ [(1, Answer.attributes warmResponse)] := hanswer
  simp at honly

end OwnResponse

end ZigbeeRemote.Server.ZigbeeStack
