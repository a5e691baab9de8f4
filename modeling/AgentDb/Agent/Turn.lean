import AgentDb.Error
import AgentDb.Executor.Cancel
import AgentDb.Executor.Registry

/-!
# Chat turns: `agent/mod.rs`

`send_turn` runs one turn of a chat: it waits for `turn_lock`, names itself in `active_turn`, loads
the thread, stores the user message, and runs the CLI under a cancellation slot; then it stores the
reply, tells the window that the turn is done, and lets go of both. A turn is a task that makes
these moves one at a time, and between any two of them other turns may move, a cancel may come, and
other tasks may work on the registry. `asked`, `resumed` and `refused` are read by nothing: they
remember what happened.
-/

namespace AgentDb
namespace Agent

open Executor

/-- `AgentProvider`. -/
inductive AgentProvider
  | claude
  | codex
  deriving DecidableEq, Repr

/-- The `Debug` name of a provider. -/
def AgentProvider.debug : AgentProvider → String
  | .claude => "Claude"
  | .codex => "Codex"

/-- What `send_turn` reads of a `ChatThread`. -/
structure ChatThread where
  provider : AgentProvider
  cliSessionId : Option String
  deriving DecidableEq

/-- A row of `agent_chat_messages`. -/
structure ChatMessage where
  id : Uuid
  threadId : Uuid
  role : String
  text : String
  error : Option String
  deriving DecidableEq

/-- What the window is told: `agent:chat_event` and `agent:chat_done`. -/
inductive ChatEvent
  | event (turnId threadId : Uuid) (textChunk : String)
  | done (turnId threadId : Uuid) (ok : Bool) (error : Option String)
  deriving DecidableEq

/-- `ChatSignal`. -/
inductive ChatSignal
  | text (chunk : String)
  | sessionId (id : String)
  | turnFailed (message : String)

/-- `TurnProgress`. -/
structure TurnProgress where
  sessionId : Option String := none
  text : String := ""
  error : Option String := none

/-- What a signal does to the progress. -/
def TurnProgress.take (p : TurnProgress) : ChatSignal → TurnProgress
  | .text chunk => { p with text := p.text ++ chunk }
  | .sessionId id => { p with sessionId := some id }
  | .turnFailed message => { p with error := some message }

/-- The arguments of a call of `send_turn`. -/
structure TurnCall where
  threadId : Uuid
  message : String
  turnId : Uuid
  userMessageId : Uuid

/-- What a signal tells the window. -/
def TurnCall.emits (call : TurnCall) : ChatSignal → List ChatEvent
  | .text chunk => [.event call.turnId call.threadId chunk]
  | _ => []

/-- The error of a turn that ran for `CHAT_TURN_TIMEOUT`. -/
def turnTimedOut : AppError := .safety "query timed out after 600s and was aborted"

/-! ### The places of a turn -/

/-- The places at which the future that runs the CLI waits: before its process is there, for the
next line, for the tail of its errors, and for its exit. -/
inductive RunAt
  | spawning
  | lines
  | tail
  | exit (tail : Option String)
  deriving DecidableEq

/-- How far a call of `send_turn` is. The guarded future is polled, or waits to be. -/
inductive Phase
  | queued
  | locked
  | active
  | loaded (thread : ChatThread)
  | written (thread : ChatThread)
  | waiting (thread : ChatThread) (handle : CancelHandle) (place : RunAt)
  | polling (thread : ChatThread) (handle : CancelHandle) (place : RunAt)
      (signals : List ChatSignal)
  | leaving (thread : ChatThread) (handle : CancelHandle) (outcome : AppResult Bool)
  | ended (thread : ChatThread) (outcome : AppResult Bool)
  | replied (thread : ChatThread) (outcome : AppResult Bool)
  | finished (thread : ChatThread) (outcome : AppResult Bool)
  | returning (result : AppResult Unit)
  | cleared (result : AppResult Unit)
  | returned (result : AppResult Unit)

/-- One call of `send_turn`. -/
structure Turn where
  call : TurnCall
  phase : Phase
  progress : TurnProgress
  /-- Its CLI process is there. -/
  child : Bool
  /-- A cancel was issued for it while `active_turn` named it. -/
  asked : Bool
  /-- Its future was polled after that without being cancelled. -/
  resumed : Bool
  /-- The store did not take its reply. -/
  refused : Bool

/-- What the turns share: `ChatSlot`, the registry of cancellations, the store and the window. -/
structure Shared where
  turnLock : Option Uuid
  activeTurn : Option Uuid
  registry : Registry
  messages : List ChatMessage
  events : List ChatEvent

/-- The rows under an id. -/
def rowsOf (id : Uuid) (messages : List ChatMessage) : List ChatMessage :=
  messages.filter (·.id = id)

/-- Whether a turn is a success, and its error. -/
def Turn.verdict (turn : Turn) : AppResult Bool → Bool × Option String
  | .ok ok => (ok, turn.progress.error)
  | .error e => (false, turn.progress.error <|> some e.toText)

/-- What `send_turn` returns in the end. -/
def Turn.result (turn : Turn) (thread : ChatThread) (outcome : AppResult Bool) : AppResult Unit :=
  match outcome with
  | .ok true => .ok ()
  | .ok false =>
      .error (.agent ((turn.verdict outcome).2.getD
        (thread.provider.debug ++ " exited with a non-zero status")))
  | .error e => .error e

/-! ### The moves of a turn -/

/-- What a turn does next, with the answers it is given. -/
inductive TurnMove
  | lock
  | activate
  | load (thread : ChatThread)
  | loadFails (error : AppError)
  | write
  | writeFails (error : AppError)
  | commandFails (error : AppError)
  | register
  | cancelled
  | poll
  | spawn
  | spawnFails (error : String)
  | line (signals : List ChatSignal)
  | signal
  | linesEnd
  | lineFails (error : String)
  | tailRead (tail : Option String)
  | exited (success : Bool)
  | exitFails (error : String)
  | pend
  | timedOut
  | unregister
  | reply
  | replyFails
  | finish
  | announce
  | clear
  | unlock

/-- `send_turn`, move by move. -/
inductive TurnStep (s : Shared) (turn : Turn) : TurnMove → Shared → Turn → Prop
  | lock (hphase : turn.phase = .queued) (hfree : s.turnLock = none) :
      TurnStep s turn .lock { s with turnLock := some turn.call.turnId }
        { turn with phase := .locked }
  | activate (hphase : turn.phase = .locked) :
      TurnStep s turn .activate { s with activeTurn := some turn.call.turnId }
        { turn with phase := .active }
  | load (thread : ChatThread) (hphase : turn.phase = .active) :
      TurnStep s turn (.load thread) s { turn with phase := .loaded thread }
  | loadFails (error : AppError) (hphase : turn.phase = .active) :
      TurnStep s turn (.loadFails error) s { turn with phase := .returning (.error error) }
  | write {thread : ChatThread} (hphase : turn.phase = .loaded thread)
      (hnew : rowsOf turn.call.userMessageId s.messages = []) :
      TurnStep s turn .write
        { s with
          messages := s.messages ++
            [⟨turn.call.userMessageId, turn.call.threadId, "user", turn.call.message, none⟩] }
        { turn with phase := .written thread }
  | writeFails {thread : ChatThread} (error : AppError) (hphase : turn.phase = .loaded thread) :
      TurnStep s turn (.writeFails error) s { turn with phase := .returning (.error error) }
  -- the progress is seeded with the session that is resumed, whether there is a command or not
  | commandFails {thread : ChatThread} (error : AppError) (hphase : turn.phase = .written thread) :
      TurnStep s turn (.commandFails error) s
        { turn with
          phase := .ended thread (.error error)
          progress := { turn.progress with sessionId := thread.cliSessionId } }
  | register {thread : ChatThread} (hphase : turn.phase = .written thread) :
      TurnStep s turn .register
        { s with registry := (s.registry.register turn.call.turnId).2 }
        { turn with
          phase := .waiting thread (s.registry.register turn.call.turnId).1 .spawning
          progress := { turn.progress with sessionId := thread.cliSessionId } }
  -- `select!` is biased: a poll looks at the signal first
  | cancelled {thread : ChatThread} {handle : CancelHandle} {place : RunAt}
      (hphase : turn.phase = .waiting thread handle place)
      (hsignal : s.registry.isCancelled handle = true) :
      TurnStep s turn .cancelled s
        { turn with
          phase := .leaving thread handle (.error Interrupt.cancelled.error)
          child := false }
  | poll {thread : ChatThread} {handle : CancelHandle} {place : RunAt}
      (hphase : turn.phase = .waiting thread handle place)
      (hsignal : s.registry.isCancelled handle = false) :
      TurnStep s turn .poll s
        { turn with
          phase := .polling thread handle place []
          resumed := turn.resumed || turn.asked }
  | spawn {thread : ChatThread} {handle : CancelHandle}
      (hphase : turn.phase = .polling thread handle .spawning []) :
      TurnStep s turn .spawn s
        { turn with
          phase := .polling thread handle .lines []
          child := true }
  | spawnFails {thread : ChatThread} {handle : CancelHandle} (error : String)
      (hphase : turn.phase = .polling thread handle .spawning []) :
      TurnStep s turn (.spawnFails error) s
        { turn with phase := .leaving thread handle (.error (.io error)) }
  | line {thread : ChatThread} {handle : CancelHandle} (signals : List ChatSignal)
      (hphase : turn.phase = .polling thread handle .lines []) :
      TurnStep s turn (.line signals) s
        { turn with phase := .polling thread handle .lines signals }
  | signal {thread : ChatThread} {handle : CancelHandle} {place : RunAt} {signal : ChatSignal}
      {signals : List ChatSignal}
      (hphase : turn.phase = .polling thread handle place (signal :: signals)) :
      TurnStep s turn .signal { s with events := s.events ++ turn.call.emits signal }
        { turn with
          phase := .polling thread handle place signals
          progress := turn.progress.take signal }
  | linesEnd {thread : ChatThread} {handle : CancelHandle}
      (hphase : turn.phase = .polling thread handle .lines []) :
      TurnStep s turn .linesEnd s { turn with phase := .polling thread handle .tail [] }
  | lineFails {thread : ChatThread} {handle : CancelHandle} (error : String)
      (hphase : turn.phase = .polling thread handle .lines []) :
      TurnStep s turn (.lineFails error) s
        { turn with
          phase := .leaving thread handle (.error (.io error))
          child := false }
  | tailRead {thread : ChatThread} {handle : CancelHandle} (tail : Option String)
      (hphase : turn.phase = .polling thread handle .tail []) :
      TurnStep s turn (.tailRead tail) s
        { turn with phase := .polling thread handle (.exit tail) [] }
  | exited {thread : ChatThread} {handle : CancelHandle} {tail : Option String} (success : Bool)
      (hphase : turn.phase = .polling thread handle (.exit tail) []) :
      TurnStep s turn (.exited success) s
        { turn with
          phase := .leaving thread handle (.ok (success && turn.progress.error.isNone))
          progress :=
            if ¬(success && turn.progress.error.isNone) ∧ turn.progress.error = none then
              { turn.progress with error := tail }
            else turn.progress
          child := false }
  | exitFails {thread : ChatThread} {handle : CancelHandle} {tail : Option String}
      (error : String) (hphase : turn.phase = .polling thread handle (.exit tail) []) :
      TurnStep s turn (.exitFails error) s
        { turn with
          phase := .leaving thread handle (.error (.io error))
          child := false }
  | pend {thread : ChatThread} {handle : CancelHandle} {place : RunAt}
      (hphase : turn.phase = .polling thread handle place []) (hplace : place ≠ .spawning) :
      TurnStep s turn .pend s { turn with phase := .waiting thread handle place }
  | timedOut {thread : ChatThread} {handle : CancelHandle} {place : RunAt}
      (hphase : turn.phase = .polling thread handle place []) (hplace : place ≠ .spawning) :
      TurnStep s turn .timedOut s
        { turn with
          phase := .leaving thread handle (.error turnTimedOut)
          child := false }
  | unregister {thread : ChatThread} {handle : CancelHandle} {outcome : AppResult Bool}
      (hphase : turn.phase = .leaving thread handle outcome) :
      TurnStep s turn .unregister { s with registry := s.registry.step (.drop handle) }
        { turn with phase := .ended thread outcome }
  | reply {thread : ChatThread} {outcome : AppResult Bool}
      (hphase : turn.phase = .ended thread outcome)
      (hnew : rowsOf turn.call.turnId s.messages = []) :
      TurnStep s turn .reply
        { s with
          messages := s.messages ++ [⟨turn.call.turnId, turn.call.threadId, "assistant",
            turn.progress.text, (turn.verdict outcome).2⟩] }
        { turn with phase := .replied thread outcome }
  | replyFails {thread : ChatThread} {outcome : AppResult Bool}
      (hphase : turn.phase = .ended thread outcome) :
      TurnStep s turn .replyFails s
        { turn with
          phase := .replied thread outcome
          refused := true }
  -- an error of `finish_chat_turn` is logged
  | finish {thread : ChatThread} {outcome : AppResult Bool}
      (hphase : turn.phase = .replied thread outcome) :
      TurnStep s turn .finish s { turn with phase := .finished thread outcome }
  | announce {thread : ChatThread} {outcome : AppResult Bool}
      (hphase : turn.phase = .finished thread outcome) :
      TurnStep s turn .announce
        { s with
          events := s.events ++ [.done turn.call.turnId turn.call.threadId
            (turn.verdict outcome).1 (turn.verdict outcome).2] }
        { turn with phase := .returning (turn.result thread outcome) }
  | clear {result : AppResult Unit} (hphase : turn.phase = .returning result) :
      TurnStep s turn .clear { s with activeTurn := none } { turn with phase := .cleared result }
  | unlock {result : AppResult Unit} (hphase : turn.phase = .cleared result) :
      TurnStep s turn .unlock { s with turnLock := none } { turn with phase := .returned result }

/-! ### All turns -/

/-- The turns that were called, by their ids, and what they share. -/
structure Chat where
  shared : Shared
  turns : Uuid → Option Turn

/-- Before the first call. The store may have messages already. -/
def Chat.start (messages : List ChatMessage) : Chat where
  shared := ⟨none, none, {}, messages, []⟩
  turns _ := none

def Turn.new (call : TurnCall) : Turn := ⟨call, .queued, {}, false, false, false, false⟩

/-- The handle a turn holds. -/
def Phase.handle : Phase → Option CancelHandle
  | .waiting _ handle _ | .polling _ handle _ _ | .leaving _ handle _ => some handle
  | _ => none

/-- The ids of a call are new, as the window draws them for each. -/
structure Chat.Fresh (w : Chat) (call : TurnCall) : Prop where
  turn : w.turns call.turnId = none
  user : w.turns call.userMessageId = none
  apart : call.turnId ≠ call.userMessageId
  users : ∀ i t, w.turns i = some t → t.call.userMessageId ≠ call.turnId ∧
    t.call.userMessageId ≠ call.userMessageId
  rows : ∀ m ∈ w.shared.messages, m.id ≠ call.turnId ∧ m.id ≠ call.userMessageId

/-- What happens next. -/
inductive ChatMove
  | send (call : TurnCall)
  | turn (id : Uuid) (move : TurnMove)
  | cancel (id : Uuid)
  | other (move : Registry.Move)

/-- `cancel_query` and the exit hook: the signal of an id is set. It is remembered whether
`active_turn` named the id. -/
def Chat.cancel (w : Chat) (id : Uuid) : Chat where
  shared := { w.shared with registry := w.shared.registry.step (.cancel id) }
  turns := fun i => (w.turns i).map fun t =>
    if i = id ∧ w.shared.activeTurn = some id then { t with asked := true } else t

/-- One move of anybody. Another task drops its own handles only. -/
inductive Chat.Step (w : Chat) : ChatMove → Chat → Prop
  | send (call : TurnCall) (hfresh : w.Fresh call) :
      Chat.Step w (.send call)
        { w with turns := Function.update w.turns call.turnId (some (.new call)) }
  | turn {id : Uuid} {t t' : Turn} {s' : Shared} {move : TurnMove} (hturn : w.turns id = some t)
      (hstep : TurnStep w.shared t move s' t') :
      Chat.Step w (.turn id move) ⟨s', Function.update w.turns id (some t')⟩
  | cancel (id : Uuid) : Chat.Step w (.cancel id) (w.cancel id)
  | other (move : Registry.Move)
      (hown : ∀ i t handle, w.turns i = some t → t.phase.handle = some handle →
        move ≠ .drop handle) :
      Chat.Step w (.other move)
        { w with shared := { w.shared with registry := w.shared.registry.step move } }

/-- A run: the moves of everybody, in any order. -/
inductive Chat.Run (start : Chat) : List ChatMove → Chat → Prop
  | nil : Chat.Run start [] start
  | snoc {moves : List ChatMove} {w w' : Chat} {move : ChatMove} (hrun : Chat.Run start moves w)
      (hstep : w.Step move w') : Chat.Run start (moves ++ [move]) w'

end Agent
end AgentDb
