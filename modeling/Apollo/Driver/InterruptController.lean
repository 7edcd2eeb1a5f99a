import Apollo.Driver.Chipset
import Apollo.Lib.StableSort

/-!
# The interrupt controller

`InterruptController.c`.  An interrupt may arrive between any two instructions of a
call, so a call is cut into the sections between the points where the arrays of the
handlers or the registers of the chipset change.  The lock makes the other callers
wait until the call has returned.
-/

set_option autoImplicit false

namespace Apollo.Driver

open Lib

inductive InterruptHandlerType
  | direct
  | countingSemaphore
  deriving DecidableEq

/-- `InterruptHandler`.  The priority is an `int8_t`, and `closure` and `context` are addresses. -/
structure InterruptHandler where
  identity : Int
  type : InterruptHandlerType
  priority : Int
  flags : UInt8
  closure : Nat
  context : Nat
  deriving DecidableEq

def kInterruptHandlerFlagEnabled : UInt8 := 1

def kInterruptHandlerPriorityLowest : Int := -128

def kInterruptHandlerPriorityHighest : Int := 127

def kInterruptHandlerIDMax : Int := 2147483647

def semaphoreRelinquishFromInterruptContext : Nat := 1

/-- An `int` that is stored as an `int8_t`. -/
def toInt8 (value : Int) : Int := (BitVec.ofInt 8 value).toInt

namespace InterruptHandler

def isEnabled (handler : InterruptHandler) : Bool := handler.flags &&& kInterruptHandlerFlagEnabled != 0

def setEnabled (enabled : Bool) (handler : InterruptHandler) : InterruptHandler :=
  { handler with
    flags :=
      if enabled then handler.flags ||| kInterruptHandlerFlagEnabled else handler.flags &&& ~~~kInterruptHandlerFlagEnabled }

/-- The handler that `InterruptController_AddDirectInterruptHandler` makes. -/
def makeDirect (priority : Int) (closure context : Nat) : InterruptHandler where
  identity := 0
  type := .direct
  priority := toInt8 (max (min priority kInterruptHandlerPriorityHighest) kInterruptHandlerPriorityLowest)
  flags := 0
  closure := closure
  context := context

/-- The handler that `InterruptController_AddSemaphoreInterruptHandler` makes; its priority is not clamped. -/
def makeSemaphore (priority : Int) (semaphore : Nat) : InterruptHandler where
  identity := 0
  type := .countingSemaphore
  priority := toInt8 priority
  flags := 0
  closure := semaphoreRelinquishFromInterruptContext
  context := semaphore

end InterruptHandler

def insertionSort (handlers : List InterruptHandler) : List InterruptHandler :=
  sortDescending InterruptHandler.priority handlers

structure InterruptController where
  handlers : InterruptID → List InterruptHandler
  nextAvailableId : Int
  chipset : Chipset

/-- A call that holds the lock, behind one of its sections. -/
inductive PendingCall
  /-- The new array of the handlers is made. -/
  | adding (interruptId : InterruptID) (newHandlers : List InterruptHandler) (handler : InterruptHandler)
  /-- The new array is installed. -/
  | enabling (interruptId : InterruptID) (handlerId : Int)
  /-- The new array of the handlers is made. -/
  | removing (interruptId : InterruptID) (newHandlers : List InterruptHandler) (handlerId : Int)
  /-- The source is disabled if it has to be. -/
  | installing (interruptId : InterruptID) (newHandlers : List InterruptHandler) (handlerId : Int)
  deriving DecidableEq

structure InterruptSystem where
  controller : InterruptController
  pending : Option PendingCall

namespace InterruptController

/-- `InterruptController_CreateForLocalCPU`, behind `chipset_reset`. -/
def createForLocalCPU : InterruptController := ⟨fun _ => [], 1, .reset⟩

/-- Another array of handlers for an interrupt; the start and the count of the array change with the interrupts disabled. -/
def install (controller : InterruptController) (interruptId : InterruptID) (newHandlers : List InterruptHandler) :
    InterruptController :=
  { controller with handlers := Function.update controller.handlers interruptId newHandlers }

/-- The new array of `InterruptController_AddInterruptHandler`. -/
def arrayWith (controller : InterruptController) (interruptId : InterruptID) (handler : InterruptHandler) :
    List InterruptHandler :=
  insertionSort (controller.handlers interruptId ++ [handler])

/-- The interrupt that has the handler, as `InterruptController_RemoveInterruptHandler` finds it: the last one. -/
def interruptOf (controller : InterruptController) (handlerId : Int) : Option InterruptID :=
  (List.finRange kInterruptIDCount).foldl
    (fun found interruptId =>
      if (controller.handlers interruptId).any (·.identity == handlerId) then some interruptId else found) none

/-- The handlers that `InterruptController_RemoveInterruptHandler` retains. -/
def arrayWithout (controller : InterruptController) (interruptId : InterruptID) (handlerId : Int) : List InterruptHandler :=
  (controller.handlers interruptId).filter (·.identity != handlerId)

/-- The array in which `InterruptController_GetInterruptHandlerForID_Locked` finds a handler: the first one. -/
def arrayOf (controller : InterruptController) (handlerId : Int) : Option InterruptID :=
  (List.finRange kInterruptIDCount).find? fun interruptId => (controller.handlers interruptId).any (·.identity == handlerId)

def changeFirst (change : InterruptHandler → InterruptHandler) (handlerId : Int) : List InterruptHandler → List InterruptHandler
  | [] => []
  | handler :: rest =>
    if handler.identity = handlerId then change handler :: rest else handler :: changeFirst change handlerId rest

/-- `InterruptController_OnInterrupt`: the closures that are invoked, with their contexts. -/
def onInterrupt : List InterruptHandler → List (Nat × Nat)
  | [] => []
  | handler :: rest => if handler.isEnabled then (handler.closure, handler.context) :: onInterrupt rest else onInterrupt rest

end InterruptController

inductive InterruptRequest
  /-- `InterruptController_AddDirectInterruptHandler`; `memory` is whether memory is delivered. -/
  | addDirect (interruptId : InterruptID) (priority : Int) (closure context : Nat) (memory : Bool)
  | addSemaphore (interruptId : InterruptID) (priority : Int) (semaphore : Nat) (memory : Bool)
  | remove (handlerId : Int) (memory : Bool)
  | setEnabled (handlerId : Int) (enabled : Bool)
  /-- The next section of the call that holds the lock. -/
  | resume
  /-- An interrupt arrives. -/
  | interrupt (interruptId : InterruptID)
  deriving DecidableEq

def InterruptRequest.hasMemory : InterruptRequest → Bool
  | .addDirect _ _ _ _ memory => memory
  | .addSemaphore _ _ _ memory => memory
  | .remove _ memory => memory
  | _ => true

inductive InterruptReply
  /-- The call holds the lock and goes on. -/
  | proceeds
  /-- `ENOMEM`. -/
  | failed
  /-- The call that adds a handler returns its id. -/
  | added (handlerId : Int)
  | returned
  | invoked (calls : List (Nat × Nat))
  deriving DecidableEq

namespace InterruptSystem

open InterruptController

/-- The first section of `InterruptController_AddInterruptHandler`; there is no step when the next id overflows. -/
def addInterruptHandler (system : InterruptSystem) (interruptId : InterruptID) (handler : InterruptHandler) (memory : Bool) :
    Option (InterruptReply × InterruptSystem) :=
  if memory then
    if system.controller.nextAvailableId < kInterruptHandlerIDMax then
      let handlerId := system.controller.nextAvailableId
      let handler := { handler with identity := handlerId }
      some (.proceeds,
        { controller := { system.controller with nextAvailableId := handlerId + 1 }
          pending := some (.adding interruptId (system.controller.arrayWith interruptId handler) handler) })
    else none
  else some (.failed, system)

/-- The first section of `InterruptController_RemoveInterruptHandler`; there is no step when the retained handlers do not fill
the new array. -/
def removeInterruptHandler (system : InterruptSystem) (handlerId : Int) (memory : Bool) :
    Option (InterruptReply × InterruptSystem) :=
  if handlerId = 0 then some (.returned, system)
  else
    match system.controller.interruptOf handlerId with
    | none => some (.returned, system)
    | some interruptId =>
      if memory then
        let newHandlers := system.controller.arrayWithout interruptId handlerId
        if newHandlers.length + 1 = (system.controller.handlers interruptId).length then
          some (.proceeds, { system with pending := some (.removing interruptId newHandlers handlerId) })
        else none
      else some (.failed, system)

/-- `InterruptController_SetInterruptHandlerEnabled`; there is no step when the assertion fails. -/
def setInterruptHandlerEnabled (system : InterruptSystem) (handlerId : Int) (enabled : Bool) :
    Option (InterruptReply × InterruptSystem) :=
  match system.controller.arrayOf handlerId with
  | none => none
  | some interruptId =>
    let handlers := changeFirst (·.setEnabled enabled) handlerId (system.controller.handlers interruptId)
    some (.returned, { system with controller := system.controller.install interruptId handlers })

def resume (controller : InterruptController) : PendingCall → InterruptReply × InterruptSystem
  | .adding interruptId newHandlers handler =>
    (.proceeds, ⟨controller.install interruptId newHandlers, some (.enabling interruptId handler.identity)⟩)
  | .enabling interruptId handlerId =>
    (.added handlerId, ⟨{ controller with chipset := controller.chipset.enableInterrupt interruptId }, none⟩)
  | .removing interruptId newHandlers handlerId =>
    (.proceeds,
      { controller :=
          if newHandlers = [] then { controller with chipset := controller.chipset.disableInterrupt interruptId }
          else controller
        pending := some (.installing interruptId newHandlers handlerId) })
  | .installing interruptId newHandlers _ =>
    (.returned, ⟨controller.install interruptId newHandlers, none⟩)

def call (system : InterruptSystem) : InterruptRequest → Option (InterruptReply × InterruptSystem)
  | .addDirect interruptId priority closure context memory =>
    system.addInterruptHandler interruptId (.makeDirect priority closure context) memory
  | .addSemaphore interruptId priority semaphore memory =>
    system.addInterruptHandler interruptId (.makeSemaphore priority semaphore) memory
  | .remove handlerId memory => system.removeInterruptHandler handlerId memory
  | .setEnabled handlerId enabled => system.setInterruptHandlerEnabled handlerId enabled
  | _ => none

def perform (system : InterruptSystem) : InterruptRequest → Option (InterruptReply × InterruptSystem)
  | .interrupt interruptId => some (.invoked (onInterrupt (system.controller.handlers interruptId)), system)
  | .resume => system.pending.map (resume system.controller)
  | request => if system.pending = none then system.call request else none

def Step (system : InterruptSystem) (label : InterruptRequest × InterruptReply) (after : InterruptSystem) : Prop :=
  system.perform label.1 = some (label.2, after)

def start : InterruptSystem := ⟨.createForLocalCPU, none⟩

end InterruptSystem

/-! ## Registrations -/

abbrev Entry : Type := InterruptID × InterruptHandler

/-- A registration that a request asks for; it is in no array of the controller yet. -/
def InterruptRequest.registers (handlerId : Int) : InterruptRequest → Option Entry
  | .addDirect interruptId priority closure context _ =>
    some (interruptId, ⟨handlerId, .direct, max (min priority 127) (-128), 0, closure, context⟩)
  | .addSemaphore interruptId priority semaphore _ =>
    some (interruptId,
      ⟨handlerId, .countingSemaphore, toInt8 priority, 0, semaphoreRelinquishFromInterruptContext, semaphore⟩)
  | _ => none

/-- How many registrations were asked for and not refused. -/
def adds : List (InterruptRequest × InterruptReply) → Nat
  | [] => 0
  | (request, reply) :: earlier =>
    if reply ≠ .failed ∧ (request.registers 0).isSome then adds earlier + 1 else adds earlier

def InterruptHandler.setEnabledIf (handlerId : Int) (enabled : Bool) (handler : InterruptHandler) : InterruptHandler :=
  if handler.identity = handlerId then handler.setEnabled enabled else handler

/-- What a request makes of the registrations when it is not refused; the handlers are numbered from 1 on. -/
def InterruptRequest.applied (handlerId : Int) (entries : List Entry) : InterruptRequest → List Entry
  | .remove removed _ => entries.filter (·.2.identity != removed)
  | .setEnabled changed enabled => entries.map fun entry => (entry.1, entry.2.setEnabledIf changed enabled)
  | request => entries ++ (request.registers handlerId).toList

def requested : List (InterruptRequest × InterruptReply) → List Entry
  | [] => []
  | (request, reply) :: earlier =>
    if reply = .failed then requested earlier else request.applied (adds earlier + 1) (requested earlier)

/-- The labels in front of the last call. -/
def beforeCall : List (InterruptRequest × InterruptReply) → List (InterruptRequest × InterruptReply)
  | [] => []
  | (.resume, _) :: earlier => beforeCall earlier
  | (.interrupt _, _) :: earlier => beforeCall earlier
  | _ :: earlier => earlier

/-- The ids that calls returned, newest first. -/
def issuedIds (labels : List (InterruptRequest × InterruptReply)) : List Int :=
  labels.filterMap fun label =>
    match label.2 with
    | .added handlerId => some handlerId
    | _ => none

/-- The numbers from `count` down to 1. -/
def numbers : Nat → List Int
  | 0 => []
  | count + 1 => (count + 1 : Int) :: numbers count

def entriesOf (interruptId : InterruptID) (entries : List Entry) : List InterruptHandler :=
  (entries.filter (·.1 == interruptId)).map (·.2)

end Apollo.Driver
