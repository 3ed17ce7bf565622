import XWrt.Foundation.Transducer

/-!
# Sharing a channel that carries one request at a time

Clients share a server that works on one request and answers it before it gets
the next. The requests wait in a queue whose head is the one the server has.
An answer goes to the client at the head, and the request behind it is sent.
-/

namespace XWrt.Foundation.SerialChannel

variable {κ μ ρ : Type*}

inductive Event (κ μ ρ : Type*) where
  | request (client : κ) (message : μ)
  | answer (reply : ρ)

inductive Action (κ μ ρ : Type*) where
  | send (message : μ)
  | deliver (client : κ) (reply : ρ)

/-- The server is given the request at the head. -/
def sendHead (waiting : List (κ × μ)) : List (Action κ μ ρ) :=
  (waiting.take 1).map fun entry => .send entry.2

def step (waiting : List (κ × μ)) : Event κ μ ρ → List (κ × μ) × List (Action κ μ ρ)
  | .request client message =>
      (waiting ++ [(client, message)], if waiting.isEmpty then [.send message] else [])
  | .answer reply =>
      match waiting with
      | [] => ([], [])
      | (client, _) :: rest => (rest, .deliver client reply :: sendHead rest)

def channel : Transducer (List (κ × μ)) (Event κ μ ρ) (Action κ μ ρ) := ⟨step⟩

/-- An answer comes only while the server has a request. -/
def Awaited (waiting : List (κ × μ)) : Event κ μ ρ → Prop
  | .request _ _ => True
  | .answer _ => waiting ≠ []

def requests (events : List (Event κ μ ρ)) : List (κ × μ) :=
  events.filterMap fun
    | .request client message => some (client, message)
    | .answer _ => none

def answers (events : List (Event κ μ ρ)) : List ρ :=
  events.filterMap fun
    | .request _ _ => none
    | .answer reply => some reply

def sent (actions : List (Action κ μ ρ)) : List μ :=
  actions.filterMap fun
    | .send message => some message
    | .deliver _ _ => none

def delivered (actions : List (Action κ μ ρ)) : List (κ × ρ) :=
  actions.filterMap fun
    | .send _ => none
    | .deliver client reply => some (client, reply)

section Projections

variable (client : κ) (message : μ) (reply : ρ)

@[simp]
theorem requests_nil : requests ([] : List (Event κ μ ρ)) = [] := rfl

@[simp]
theorem requests_request (events : List (Event κ μ ρ)) :
    requests (.request client message :: events) = (client, message) :: requests events := rfl

@[simp]
theorem requests_answer (events : List (Event κ μ ρ)) :
    requests (.answer reply :: events) = requests events := rfl

@[simp]
theorem answers_nil : answers ([] : List (Event κ μ ρ)) = [] := rfl

@[simp]
theorem answers_request (events : List (Event κ μ ρ)) :
    answers (.request client message :: events) = answers events := rfl

@[simp]
theorem answers_answer (events : List (Event κ μ ρ)) :
    answers (.answer reply :: events) = reply :: answers events := rfl

@[simp]
theorem sent_nil : sent ([] : List (Action κ μ ρ)) = [] := rfl

@[simp]
theorem sent_send (actions : List (Action κ μ ρ)) :
    sent (.send message :: actions) = message :: sent actions := rfl

@[simp]
theorem sent_deliver (actions : List (Action κ μ ρ)) :
    sent (.deliver client reply :: actions) = sent actions := rfl

@[simp]
theorem delivered_nil : delivered ([] : List (Action κ μ ρ)) = [] := rfl

@[simp]
theorem delivered_send (actions : List (Action κ μ ρ)) :
    delivered (.send message :: actions) = delivered actions := rfl

@[simp]
theorem delivered_deliver (actions : List (Action κ μ ρ)) :
    delivered (.deliver client reply :: actions) = (client, reply) :: delivered actions := rfl

@[simp]
theorem sent_sendHead (waiting : List (κ × μ)) :
    sent (sendHead waiting : List (Action κ μ ρ)) = (waiting.take 1).map Prod.snd := by
  cases waiting <;> rfl

@[simp]
theorem delivered_sendHead (waiting : List (κ × μ)) :
    delivered (sendHead waiting : List (Action κ μ ρ)) = [] := by
  cases waiting <;> rfl

end Projections

/-! ## Runs -/

variable (waiting : List (κ × μ)) (events : List (Event κ μ ρ))

end XWrt.Foundation.SerialChannel
