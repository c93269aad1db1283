import CocoaPaho.PahoClient

/-!
The world of the wrapper: all clients, all options objects, and the history of what happened. The
library is a function from histories to replies, so that a statement about every library covers
every combination of return codes, tokens and callbacks.
-/

namespace CocoaPaho

open Base

/-- The methods of a client that call the library. -/
inductive Method where
  | connect
  | disconnect
  | subscribe
  | subscribeTopics
  | unsubscribeTopic
  | unsubscribeTopics
  | publish
  | isConnected
  deriving DecidableEq

inductive Event where
  /-- A library call has returned, made by a client in the body of a method. -/
  | call (client : ClientId) (method : Method) (c : LibCall) (r : Reply)
  /-- The library has entered a callback. -/
  | enter (d : Dispatch) (result : CallbackResult)
  | leave (d : Dispatch)
  | malloc (address : ℕ)
  | free (address : ℕ)
  /-- The token of a request, given by its place in the history, was written out. -/
  | tokenOut (source : ℕ) (token : ℤ)
  /-- A method has returned to its caller. -/
  | returned (client : ClientId) (method : Method) (rc : ℤ)
  /-- The `dealloc` of an object has begun. -/
  | dealloc (object : Obj)

/-- The library, and whether the wrapper is built with SSL. -/
structure Env where
  reply : List Event → LibCall → Reply
  enableSSLConnection : Bool

structure World where
  clients : ClientId → PahoClient
  ssls : SSLId → PahoSSLOptions
  trace : List Event := []

namespace World

def emit (w : World) (events : List Event) : World := { w with trace := w.trace ++ events }

def modify (w : World) (self : ClientId) (f : PahoClient → PahoClient) : World :=
  { w with clients := Function.update w.clients self (f (w.clients self)) }

/-- The library enters a callback, and the C function runs. -/
def enter (d : Dispatch) (w : World) : World :=
  w.emit [.enter d (runCallback w.clients d.context w.ssls d.invocation)]

def leave (d : Dispatch) (w : World) : World := w.emit [.leave d]

/-- The events of a callback in which the delegate calls no client. -/
def dispatch (w : World) (d : Dispatch) : List Event :=
  [.enter d (runCallback w.clients d.context w.ssls d.invocation), .leave d]

/-- The events of a call to the library, made after some history: the call, and the callbacks in its
window. -/
def answer (env : Env) (self : ClientId) (method : Method) (c : LibCall) (t : List Event)
    (w : World) : List Event :=
  .call self method c (env.reply t c) :: (env.reply t c).window.flatMap w.dispatch

/-- One call to the library. -/
def call (env : Env) (self : ClientId) (method : Method) (c : LibCall) (w : World) :
    World × Reply :=
  (w.emit (w.answer env self method c w.trace), env.reply w.trace c)

/-- A call of which the return code is used only. -/
def request (env : Env) (self : ClientId) (method : Method) (c : LibCall) (w : World) :
    World × ℤ :=
  let result := w.call env self method c
  (result.1, result.2.rc)

def isMalloc : Event → Bool
  | .malloc _ => true
  | _ => false

/-- The address the next `malloc` returns, of no block allocated before. -/
def nextAddress (w : World) : ℕ := w.trace.countP isMalloc

/-- `malloc`, which returns a block for any size, zero included. -/
def malloc (w : World) : World := w.emit [.malloc w.nextAddress]

def free (w : World) (address : ℕ) : World := w.emit [.free address]

/-- `strdup` of every string of a list, in order: each copy ends at the first NUL. -/
def strdup : List CString → World → World × List (Buffer CString)
  | [], w => (w, [])
  | s :: ss, w =>
    let rest := strdup ss w.malloc
    (rest.1, ⟨w.nextAddress, cText s⟩ :: rest.2)

/-- `free` of every buffer of a list, in order. -/
def freeAll {α : Type} (buffers : List (Buffer α)) (w : World) : World :=
  buffers.foldl (fun w buffer => w.free buffer.address) w

@[simp] theorem emit_clients (w : World) (events : List Event) :
    (w.emit events).clients = w.clients := rfl

@[simp] theorem emit_trace (w : World) (events : List Event) :
    (w.emit events).trace = w.trace ++ events := rfl

@[simp] theorem malloc_clients (w : World) : w.malloc.clients = w.clients := rfl

@[simp] theorem free_clients (w : World) (address : ℕ) : (w.free address).clients = w.clients := rfl

@[simp] theorem free_trace (w : World) (address : ℕ) :
    (w.free address).trace = w.trace ++ [.free address] := rfl

/-- What every `malloc` keeps is kept by the copying of strings. -/
theorem strdup_induction {P : World → Prop} (hP : ∀ w, P w → P w.malloc) (strings : List CString)
    {w : World} (h : P w) : P (w.strdup strings).1 := by
  induction strings generalizing w with
  | nil => exact h
  | cons s ss ih => exact ih (hP w h)

/-- What every `free` keeps is kept by the freeing of buffers. -/
theorem freeAll_induction {α : Type} {P : World → Prop}
    (hP : ∀ w address, P w → P (w.free address)) (buffers : List (Buffer α)) {w : World} (h : P w) :
    P (w.freeAll buffers) := by
  induction buffers generalizing w with
  | nil => exact h
  | cons buffer buffers ih => exact ih (hP w buffer.address h)

@[simp] theorem strdup_clients (strings : List CString) (w : World) :
    (w.strdup strings).1.clients = w.clients :=
  strdup_induction (P := fun v => v.clients = w.clients) (fun _ h => h) strings rfl

@[simp] theorem strdup_contents (strings : List CString) (w : World) :
    (w.strdup strings).2.map Buffer.contents = strings.map cText := by
  induction strings generalizing w with
  | nil => rfl
  | cons s ss ih => rw [strdup, List.map_cons, ih, List.map_cons]

theorem strdup_length (strings : List CString) (w : World) :
    (w.strdup strings).2.length = strings.length := by
  have hlength := congrArg List.length (strdup_contents strings w)
  rwa [List.length_map, List.length_map] at hlength

@[simp] theorem freeAll_clients {α : Type} (buffers : List (Buffer α)) (w : World) :
    (w.freeAll buffers).clients = w.clients :=
  freeAll_induction (P := fun v => v.clients = w.clients) (fun _ _ h => h) buffers rfl

@[simp] theorem freeAll_trace {α : Type} (buffers : List (Buffer α)) (w : World) :
    (w.freeAll buffers).trace = w.trace ++ buffers.map fun buffer => .free buffer.address := by
  induction buffers generalizing w with
  | nil => simp [freeAll]
  | cons buffer buffers ih =>
      rw [freeAll, List.foldl_cons, ← freeAll, ih, free_trace, List.append_assoc]
      rfl

@[simp] theorem modify_self (w : World) (self : ClientId) (f : PahoClient → PahoClient) :
    (w.modify self f).clients self = f (w.clients self) := by
  simp [modify]

theorem modify_of_ne (w : World) {self other : ClientId} (h : other ≠ self)
    (f : PahoClient → PahoClient) : (w.modify self f).clients other = w.clients other := by
  simp [modify, h]

@[simp] theorem modify_trace (w : World) (self : ClientId) (f : PahoClient → PahoClient) :
    (w.modify self f).trace = w.trace := rfl

/-- In a window callbacks are entered and left. -/
theorem mem_window {w : World} {ds : List Dispatch} {e : Event} (he : e ∈ ds.flatMap w.dispatch) :
    ∃ d ∈ ds, e = .enter d (runCallback w.clients d.context w.ssls d.invocation) ∨ e = .leave d := by
  obtain ⟨d, hd, hmem⟩ := List.mem_flatMap.1 he
  rw [dispatch, List.mem_cons, List.mem_singleton] at hmem
  exact ⟨d, hd, hmem⟩

/-- A call is found in the history at the place where it was made. -/
theorem getElem?_call (env : Env) (self : ClientId) (method : Method) (c : LibCall) (w : World) :
    (w.call env self method c).1.trace[w.trace.length]? =
      some (.call self method c (w.call env self method c).2) := by
  rw [call, emit_trace, List.getElem?_append_right le_rfl, Nat.sub_self]
  rfl

end World

end CocoaPaho
