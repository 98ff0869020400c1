import ZigbeeRemote.Foundation.StreamConnection

/-!
# A client that connects again

A client whose program comes to a certain value may close its connection and connect to the same
server once more, with another program. The server serves one connection after the other: while it
is still busy with the first, the client may already write into the second, which the server accepts
when it has closed its end of the first.

`Redial` is the state of the two, and `Redial.Step` every order in which things can happen. Each of
the two connections may be a conversation that comes to its end by itself. `Redial.inevitable_first`
says that both together then do the same, with the server going from the first into the second in
the state that the first has left it in; `Redial.inevitable_only` is about a client that does not
connect again.
-/

set_option autoImplicit false
set_option relaxedAutoImplicit false

namespace ZigbeeRemote.Foundation

section Settled

variable {κ μ α σ ε β : Type} {restart : β → Option (Prog σ ε β)} {value : α} {marks : List ε}
  {state : σ}

/-- A connection is over on both sides: the value of the client's program, the marks of the server,
and the state the server is left in. -/
structure Connection.Settled (value : α) (marks : List ε) (state : σ)
    (connection : Connection κ μ α σ ε β) : Prop where
  clientClosed : connection.clientOpen = false
  serverClosed : connection.serverOpen = false
  value : connection.client.prog = .done value
  marks : connection.server.marks = marks
  state : connection.server.state = state

/-- Nothing happens on a connection that both sides have closed. -/
theorem Connection.Step.eq_of_closed {before after : Connection κ μ α σ ε β} {label : Happening}
    (hstep : Connection.Step restart before label after) (hclient : before.clientOpen = false)
    (hserver : before.serverOpen = false) : after = before := by
  obtain ⟨client, server, toServer, toClient, clientOpen, serverOpen⟩ := before
  obtain rfl : clientOpen = false := hclient
  obtain rfl : serverOpen = false := hserver
  cases hstep with
  | client hopen => cases hopen
  | server hopen => cases hopen
  | clientCloses => rfl
  | serverCloses => rfl

/-- A thread leaves marks and takes none back. -/
theorem Thread.Step.marks_prefix {again : α → Option (Prog κ μ α)} {before after : Thread κ μ α}
    {move : Move} (hstep : Thread.Step again before move after) : before.marks <+: after.marks := by
  cases hstep with
  | note => exact List.prefix_append _ _
  | _ => exact List.prefix_rfl

/-- The marks of both sides at an earlier time are the beginning of their marks at a later time. -/
theorem Reachable.marks_prefix {before after : Connection κ μ α σ ε β}
    (hreach : Reachable (Connection.Step restart) before after) :
    before.client.marks <+: after.client.marks ∧ before.server.marks <+: after.server.marks := by
  obtain ⟨labels, hrun⟩ := hreach
  induction hrun with
  | refl => exact ⟨List.prefix_rfl, List.prefix_rfl⟩
  | tail _ hstep hmiddle =>
    cases hstep with
    | client _ hmoves => exact ⟨hmiddle.1.trans hmoves.marks_prefix, hmiddle.2⟩
    | server _ hmoves => exact ⟨hmiddle.1, hmiddle.2.trans hmoves.marks_prefix⟩
    | clientCloses => exact hmiddle
    | serverCloses => exact hmiddle

/-- A client that has closed its end does nothing more. -/
theorem Connection.Step.client_of_closed {before after : Connection κ μ α σ ε β} {label : Happening}
    (hstep : Connection.Step restart before label after) (hclient : before.clientOpen = false) :
    after.clientOpen = false ∧ after.client = before.client := by
  cases hstep with
  | client hopen => exact absurd hopen (by simp [hclient])
  | server => exact ⟨hclient, rfl⟩
  | clientCloses => exact ⟨rfl, rfl⟩
  | serverCloses => exact ⟨hclient, rfl⟩

theorem Connection.Settled.stays {before after : Connection κ μ α σ ε β} {label : Happening}
    (hsettled : before.Settled value marks state) (hstep : Connection.Step restart before label after) :
    after = before := hstep.eq_of_closed hsettled.clientClosed hsettled.serverClosed

/-- A connection that both sides have closed is what it will have come to. -/
theorem Connection.Settled.left_of_closed {connection : Connection κ μ α σ ε β}
    (hinevitable : Inevitable (Connection.Step restart) (Connection.Settled value marks state)
      connection)
    (hclient : connection.clientOpen = false) (hserver : connection.serverOpen = false) :
    connection.server.marks = marks ∧ connection.server.state = state := by
  cases hinevitable with
  | now hsettled => exact ⟨hsettled.marks, hsettled.state⟩
  | later hcan =>
    obtain ⟨label, after, hstep, hchanged⟩ := hcan
    exact absurd (hstep.eq_of_closed hclient hserver) hchanged

/-- The client ends with the value that the connection will have come to. -/
theorem Connection.Settled.eq_of_done {connection : Connection κ μ α σ ε β} {other : α}
    (hinevitable : Inevitable (Connection.Step restart) (Connection.Settled value marks state)
      connection)
    (hclosed : connection.clientOpen = false) (hdone : connection.client.prog = .done other) :
    other = value := by
  induction hinevitable with
  | now hsettled =>
    rw [hsettled.value] at hdone
    exact (Prog.done.inj hdone).symm
  | later hcan _ ih =>
    obtain ⟨label, after, hstep, hchanged⟩ := hcan
    obtain ⟨hstill, hsame⟩ := hstep.client_of_closed hclosed
    refine ih label after hstep hchanged hstill ?_
    rw [hsame]
    exact hdone

end Settled

/-! ### Two connections -/

section Redial

variable {κ μ α σ ε β : Type}

/-- The client on its first connection, on the second before the server has accepted it, and on the
second with the marks that the server has left on the first. -/
inductive Redial (κ μ α σ ε β : Type) : Type
  | first (connection : Connection κ μ α σ ε β)
  | waiting (earlier connection : Connection κ μ α σ ε β)
  | second (earlier : List ε) (connection : Connection κ μ α σ ε β)

/-- What can happen. -/
inductive RedialLabel : Type
  | talks (label : Happening)
  | redials
  | writes (label : Happening)
  | accepts

/-- The client does it. -/
def Happening.byClient : Happening → Bool
  | .client _ => true
  | .clientCloses => true
  | _ => false

/-- A connection that the server accepts. -/
def Connection.accept (connection : Connection κ μ α σ ε β) (server : Prog σ ε β) (state : σ) :
    Connection κ μ α σ ε β := { connection with server := ⟨server, state, []⟩ }

/-- The steps of a client that connects again when `redial` says so, with the program and state it
says, and of a server that serves every connection with the same program. -/
inductive Redial.Step (restart : β → Option (Prog σ ε β)) (server : Prog σ ε β)
    (redial : α → Option (Prog κ μ α × κ)) :
    Redial κ μ α σ ε β → RedialLabel → Redial κ μ α σ ε β → Prop
  | first {before after : Connection κ μ α σ ε β} {label : Happening}
      (hstep : Connection.Step restart before label after) :
      Step restart server redial (.first before) (.talks label) (.first after)
  | redials {connection : Connection κ μ α σ ε β} {value : α} {client : Prog κ μ α} {state : κ}
      (hclosed : connection.clientOpen = false) (hdone : connection.client.prog = .done value)
      (hredial : redial value = some (client, state)) :
      Step restart server redial (.first connection) .redials
        (.waiting connection (.start client state server connection.server.state))
  | finishes {before after connection : Connection κ μ α σ ε β} {label : Happening}
      (hstep : Connection.Step restart before label after) :
      Step restart server redial (.waiting before connection) (.talks label) (.waiting after connection)
  | writes {earlier before after : Connection κ μ α σ ε β} {label : Happening}
      (hclient : label.byClient = true) (hstep : Connection.Step restart before label after) :
      Step restart server redial (.waiting earlier before) (.writes label) (.waiting earlier after)
  | accepts {earlier connection : Connection κ μ α σ ε β} (hclosed : earlier.serverOpen = false) :
      Step restart server redial (.waiting earlier connection) .accepts
        (.second earlier.server.marks (connection.accept server earlier.server.state))
  | second {marks : List ε} {before after : Connection κ μ α σ ε β} {label : Happening}
      (hstep : Connection.Step restart before label after) :
      Step restart server redial (.second marks before) (.talks label) (.second marks after)

/-- Both sides are done: the value of the client, all that the server has left as marks, and the state
it is left in. -/
inductive Redial.Settled (value : α) (marks : List ε) (state : σ) : Redial κ μ α σ ε β → Prop
  | first {connection : Connection κ μ α σ ε β} (hsettled : connection.Settled value marks state) :
      Settled value marks state (.first connection)
  | second {earlier later : List ε} {connection : Connection κ μ α σ ε β}
      (hmarks : earlier ++ later = marks) (hsettled : connection.Settled value later state) :
      Settled value marks state (.second earlier connection)

variable {restart : β → Option (Prog σ ε β)} {server : Prog σ ε β}
  {redial : α → Option (Prog κ μ α × κ)} {value result : α} {marks later : List ε} {middle after : σ}
  {earlier connection : Connection κ μ α σ ε β}

/-- What the client does before the server has accepted the connection it does whatever the server's
state. -/
theorem Connection.Step.accept {before after : Connection κ μ α σ ε β} {label : Happening}
    (hstep : Connection.Step restart before label after) (hclient : label.byClient = true)
    (server : Prog σ ε β) (state : σ) :
    Connection.Step restart (before.accept server state) label (after.accept server state) ∧
      after.server = before.server := by
  cases hstep with
  | client hopen hstep hcarries => exact ⟨.client hopen hstep hcarries, rfl⟩
  | server => cases hclient
  | clientCloses hdone => exact ⟨.clientCloses hdone, rfl⟩
  | serverCloses => cases hclient

theorem Connection.eq_of_accept {first second : Connection κ μ α σ ε β} {state : σ}
    (hsame : first.accept server state = second.accept server state)
    (hserver : first.server = second.server) : first = second := by
  obtain ⟨_, _, _, _, _, _⟩ := first
  obtain ⟨_, _, _, _, _, _⟩ := second
  simp only [Connection.accept, Connection.mk.injEq, true_and] at hsame hserver ⊢
  exact ⟨hsame.1, hserver, hsame.2⟩

/-- On the second connection everything goes as on a connection alone. -/
theorem Redial.inevitable_second
    (hsecond : Inevitable (Connection.Step restart) (Connection.Settled result later after) connection) :
    Inevitable (Redial.Step restart server redial) (Redial.Settled result (marks ++ later) after)
      (.second marks connection) := by
  induction hsecond with
  | now hsettled => exact .now (.second rfl hsettled)
  | later hcan _ ih =>
    obtain ⟨label, next, hstep, hchanged⟩ := hcan
    refine .later ⟨_, _, .second hstep, fun hsame ↦ hchanged (Redial.second.inj hsame).2⟩ ?_
    intro _ _ hany hother
    cases hany with
    | second hstep => exact ih _ _ hstep fun hsame ↦ hother (congrArg _ hsame)

/-- The server brings the first connection to its end, and then accepts the second, whatever the
client has written there before. -/
theorem Redial.inevitable_waiting
    (hfirst : Inevitable (Connection.Step restart) (Connection.Settled value marks middle) earlier)
    (hclosed : earlier.clientOpen = false)
    (hsecond : Inevitable (Connection.Step restart) (Connection.Settled result later after)
      (connection.accept server middle)) :
    Inevitable (Redial.Step restart server redial) (Redial.Settled result (marks ++ later) after)
      (.waiting earlier connection) := by
  -- Each of the two connections comes nearer to its end, while the other stays where it is.
  refine hfirst.descend (motive := fun earlier ↦ earlier.clientOpen = false → ∀ connection,
    Inevitable (Connection.Step restart) (Connection.Settled result later after)
      (connection.accept server middle) →
    Inevitable (Redial.Step restart server redial) (Redial.Settled result (marks ++ later) after)
      (.waiting earlier connection)) (fun _ _ _ ↦ Connection.Settled.stays) ?_ hclosed connection hsecond
  intro earlier hfirst ihFirst hclosed connection hsecond
  refine hsecond.descend (motive := fun start ↦ ∀ connection : Connection κ μ α σ ε β,
    connection.accept server middle = start →
    Inevitable (Redial.Step restart server redial) (Redial.Settled result (marks ++ later) after)
      (.waiting earlier connection)) (fun _ _ _ ↦ Connection.Settled.stays) ?_ connection rfl
  rintro _ hsecond ihSecond connection rfl
  refine .later ?_ ?_
  · cases hfirst with
    | now hsettled => exact ⟨_, _, .accepts hsettled.serverClosed, nofun⟩
    | later hcan =>
      obtain ⟨label, next, hstep, hchanged⟩ := hcan
      exact ⟨_, _, .finishes hstep, fun hsame ↦ hchanged (Redial.waiting.inj hsame).1⟩
  · intro _ _ hany hother
    cases hany with
    | finishes hstep =>
      refine ihFirst _ _ hstep (fun hsame ↦ hother ?_) (hstep.client_of_closed hclosed).1 _ hsecond
      exact congrArg (Redial.waiting · connection) hsame
    | writes hclient hstep =>
      obtain ⟨haccept, hserver⟩ := hstep.accept hclient server middle
      refine ihSecond _ _ haccept (fun hsame ↦ hother ?_) _ rfl
      exact congrArg (Redial.waiting earlier) (Connection.eq_of_accept hsame hserver)
    | accepts hserver =>
      obtain ⟨hmarks, hstate⟩ := Connection.Settled.left_of_closed hfirst hclosed hserver
      rw [hmarks, hstate]
      exact inevitable_second hsecond

/-- A client that connects again, on its first connection. -/
theorem Redial.inevitable_first {client : Prog κ μ α} {state : κ}
    (hredial : redial value = some (client, state))
    (hfirst : Inevitable (Connection.Step restart) (Connection.Settled value marks middle) connection)
    (hsecond : Inevitable (Connection.Step restart) (Connection.Settled result later after)
      (.start client state server middle)) :
    Inevitable (Redial.Step restart server redial) (Redial.Settled result (marks ++ later) after)
      (.first connection) := by
  refine hfirst.descend (motive := fun connection ↦ Inevitable (Redial.Step restart server redial)
    (Redial.Settled result (marks ++ later) after) (.first connection))
    (fun _ _ _ ↦ Connection.Settled.stays) ?_
  intro connection hfirst ih
  refine .later ?_ ?_
  · cases hfirst with
    | now hsettled => exact ⟨_, _, .redials hsettled.clientClosed hsettled.value hredial, nofun⟩
    | later hcan =>
      obtain ⟨label, next, hstep, hchanged⟩ := hcan
      exact ⟨_, _, .first hstep, fun hsame ↦ hchanged (Redial.first.inj hsame)⟩
  · intro _ _ hany hother
    cases hany with
    | first hstep => exact ih _ _ hstep fun hsame ↦ hother (congrArg Redial.first hsame)
    | redials hclosed hdone hagain =>
      obtain rfl := Connection.Settled.eq_of_done hfirst hclosed hdone
      obtain ⟨rfl, rfl⟩ := Prod.mk.inj (Option.some.inj (hredial.symm.trans hagain))
      exact inevitable_waiting hfirst hclosed hsecond

/-- A client that does not connect again. -/
theorem Redial.inevitable_only (hredial : redial value = none)
    (hfirst : Inevitable (Connection.Step restart) (Connection.Settled value marks after) connection) :
    Inevitable (Redial.Step restart server redial) (Redial.Settled value marks after)
      (.first connection) := by
  induction hfirst with
  | now hsettled => exact .now (.first hsettled)
  | later hcan hall ih =>
    obtain ⟨label, next, hstep, hchanged⟩ := hcan
    refine .later ⟨_, _, .first hstep, fun hsame ↦ hchanged (Redial.first.inj hsame)⟩ ?_
    intro _ _ hany hother
    cases hany with
    | first hstep => exact ih _ _ hstep fun hsame ↦ hother (congrArg Redial.first hsame)
    | redials hclosed hdone hagain =>
      obtain rfl := Connection.Settled.eq_of_done (.later ⟨label, next, hstep, hchanged⟩ hall) hclosed
        hdone
      rw [hredial] at hagain
      cases hagain

end Redial

end ZigbeeRemote.Foundation
