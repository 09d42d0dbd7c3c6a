import WebrtcMinimize.Maps
import WebrtcMinimize.Runs

/-!
# The native packager supervisor

`NativePackagerSupervisor` runs one encoder process per program. Its calls
are asynchronous: between two `await`s a call runs alone, and at an `await` on
a file operation it is suspended, with what is left of it kept as a task.
An event is a call, a sign of life of a child, a timer or the end of a file
operation; a suspended call goes on when its last file operation has ended.

Sessions and children are objects, so they are named by the order of their
creation. Counters of the input stream are read by `ingest` alone and left
out.
-/

namespace WebrtcMinimize

namespace Supervisor

/-- A resolved path, from the root down. -/
abbrev Directory := List String

structure Admission where
  programId : String
  programEpoch : Nat
  videoEncoder : String
  softwareFallback : String
  /-- The ids of the renditions. -/
  renditions : List String
  /-- `path.resolve(outputRoot, resourceRef)` -/
  outputDirectory : Directory
deriving DecidableEq

/-- The pipelines to try, each by its encoder. -/
def nativePackagerPipelineCandidates (admission : Admission) : List String :=
  if admission.videoEncoder = admission.softwareFallback then [admission.videoEncoder]
  else [admission.videoEncoder, admission.softwareFallback]

inductive SessionState
  | starting
  | running
  | degraded
  | stopping
  | stopped
  | failed
deriving DecidableEq

structure Session where
  programId : String
  programEpoch : Nat
  candidates : List String
  candidateIndex : Nat
  outputDirectory : Directory
  renditionIds : List String
  state : SessionState
  encoder : String
  fallbackCount : Nat
  /-- Set by the first `stop` of the session. -/
  stopping : Bool
  generation : Nat
  endingGeneration : Nat
  /-- The child the timer was set for. -/
  killTimer : Option (Option Nat)
  child : Option Nat
  /-- `completion` is resolved, and with it every `stop` of the session. -/
  completed : Bool
deriving DecidableEq

/-- A child, with the session and the generation its listeners were given. -/
structure Child where
  session : Nat
  generation : Nat
  running : Bool
  closed : Bool
  errored : Bool
  killed : Bool
deriving DecidableEq

inductive FileOp
  /-- `rm` with `recursive` and `force` -/
  | remove (directory : Directory)
  | mkdir (directory : Directory)
deriving DecidableEq

/-- What a suspended call does after its last file operation. -/
inductive Work
  | starting (admission : Admission)
  | relaunching (session : Nat)
  | finishing (session : Nat)
deriving DecidableEq

/-- The session a suspended call belongs to; `start` has none yet. -/
def Work.session? : Work → Option Nat
  | .starting _ => none
  | .relaunching sid => some sid
  | .finishing sid => some sid

/-- A suspended call; the first of its file operations is the one in flight. -/
structure Task where
  work : Work
  programId : String
  outputDirectory : Directory
  ops : List FileOp
deriving DecidableEq

structure SupervisorState where
  /-- `#sessions`: the session of a program, by its object. -/
  sessions : KeyedMap String Nat
  objects : KeyedMap Nat Session
  children : KeyedMap Nat Child
  tasks : KeyedMap Nat Task
  /-- The names of the next session, child and task. -/
  nextSession : Nat
  nextChild : Nat
  nextTask : Nat

def init : SupervisorState :=
  { sessions := .empty
    objects := .empty
    children := .empty
    tasks := .empty
    nextSession := 0
    nextChild := 0
    nextTask := 0 }

/-- What `spawn` does: it throws, its process could not be started (an
`error` event will say so), or the process runs. -/
inductive Spawn
  | throws
  | fails
  | runs
deriving DecidableEq

namespace SupervisorState

def setObject (s : SupervisorState) (sid : Nat) (x : Session) : SupervisorState :=
  { s with objects := s.objects.set sid x }

/-- The call is suspended at the first of its file operations. -/
def suspend (s : SupervisorState) (t : Task) : SupervisorState :=
  { s with tasks := s.tasks.set s.nextTask t, nextTask := s.nextTask + 1 }

def resumed (s : SupervisorState) (tid : Nat) : SupervisorState :=
  { s with tasks := s.tasks.erase tid }

end SupervisorState

/-- The output directory is emptied and a directory made for each rendition. -/
def prepareOps (output : Directory) (renditionIds : List String) : List FileOp :=
  .remove output :: renditionIds.map fun id => .mkdir (output ++ [id])

/-- The last lines of `#processEnded`. -/
def finish (s : SupervisorState) (sid : Nat) (x : Session) (state : SessionState) :
    SupervisorState :=
  SupervisorState.suspend
    { s with
      objects := s.objects.set sid { x with state := state }
      sessions := s.sessions.erase x.programId }
    { work := .finishing sid
      programId := x.programId
      outputDirectory := x.outputDirectory
      ops := [.remove x.outputDirectory] }

/-- `#processEnded` up to its first `await`. -/
def processEnded (s : SupervisorState) (sid : Nat) (generation : Nat) : SupervisorState :=
  match s.objects.get sid with
  | none => s
  | some x =>
      if generation ≠ x.generation ∨ x.endingGeneration = generation then s
      else if x.stopping = false ∧ x.candidateIndex + 1 < x.candidates.length then
        (s.setObject sid { x with
            endingGeneration := generation
            killTimer := none
            child := none
            candidateIndex := x.candidateIndex + 1
            fallbackCount := x.fallbackCount + 1 }).suspend
          { work := .relaunching sid
            programId := x.programId
            outputDirectory := x.outputDirectory
            ops := prepareOps x.outputDirectory x.renditionIds }
      else
        finish s sid
          { x with endingGeneration := generation, killTimer := none, child := none }
          (if x.stopping then .stopped else .failed)

/-- The session as `#launch` leaves it before it calls `spawn`. -/
def launching (x : Session) : Session :=
  { x with
    generation := x.generation + 1
    endingGeneration := 0
    encoder := x.candidates.getD x.candidateIndex ""
    state := if x.candidateIndex = 0 then .running else .degraded }

def launch (s : SupervisorState) (sid : Nat) (x : Session) (spawned : Spawn) :
    SupervisorState :=
  match spawned with
  | .throws => processEnded (s.setObject sid (launching x)) sid (x.generation + 1)
  | spawned =>
      { s with
        objects := s.objects.set sid { launching x with child := some s.nextChild }
        children := s.children.set s.nextChild
          { session := sid
            generation := x.generation + 1
            running := decide (spawned = .runs)
            closed := false
            errored := false
            killed := false }
        nextChild := s.nextChild + 1 }

/-- `start` up to its first `await`. -/
def start (s : SupervisorState) (admission : Admission) : SupervisorState :=
  match s.sessions.get admission.programId with
  | some _ => s
  | none => s.suspend
      { work := .starting admission
        programId := admission.programId
        outputDirectory := admission.outputDirectory
        ops := prepareOps admission.outputDirectory admission.renditions }

/-- The session `start` makes. -/
def newSession (admission : Admission) : Session :=
  { programId := admission.programId
    programEpoch := admission.programEpoch
    candidates := nativePackagerPipelineCandidates admission
    candidateIndex := 0
    outputDirectory := admission.outputDirectory
    renditionIds := admission.renditions
    state := .starting
    encoder := admission.videoEncoder
    fallbackCount := 0
    stopping := false
    generation := 0
    endingGeneration := 0
    killTimer := none
    child := none
    completed := false }

/-- A call goes on after its last file operation. -/
def resume (s : SupervisorState) (work : Work) (spawned : Spawn) : SupervisorState :=
  match work with
  | .starting admission =>
      launch
        { s with
          sessions := s.sessions.set admission.programId s.nextSession
          objects := s.objects.set s.nextSession (newSession admission)
          nextSession := s.nextSession + 1 }
        s.nextSession (newSession admission) spawned
  | .relaunching sid =>
      match s.objects.get sid with
      | none => s
      | some x => if x.stopping then finish s sid x .stopped else launch s sid x spawned
  | .finishing sid =>
      match s.objects.get sid with
      | none => s
      | some x => s.setObject sid { x with completed := true }

/-- The file operation in flight ends. A failed one rejects its call. -/
def fileDone (s : SupervisorState) (tid : Nat) (ok : Bool) (spawned : Spawn) :
    SupervisorState :=
  match s.tasks.get tid with
  | none => s
  | some t =>
      if ok = false then s.resumed tid
      else match t.ops with
        | _ :: op :: ops => { s with tasks := s.tasks.set tid { t with ops := op :: ops } }
        | _ => resume (s.resumed tid) t.work spawned

/-- `stop`; its promise is that of the session's completion. -/
def stop (s : SupervisorState) (programId : String) (programEpoch : Nat) : SupervisorState :=
  match s.sessions.get programId with
  | none => s
  | some sid =>
      match s.objects.get sid with
      | none => s
      | some x =>
          if x.programEpoch ≠ programEpoch ∨ x.stopping = true then s
          else s.setObject sid
            { x with stopping := true, state := .stopping, killTimer := some x.child }

/-- `destroy` stops every session. -/
def destroy (s : SupervisorState) : SupervisorState :=
  (s.sessions.values.filterMap s.objects.get).foldl
    (fun r x => stop r x.programId x.programEpoch) s

/-- The kill timer of a session fires. -/
def timeout (s : SupervisorState) (sid : Nat) : SupervisorState :=
  match s.objects.get sid with
  | none => s
  | some x =>
      match x.killTimer, x.child with
      | some (some timed), some cid =>
          match s.children.get cid with
          | none => s
          | some c =>
              if timed = cid ∧ c.killed = false then
                { s with children := s.children.set cid { c with killed := true } }
              else s
      | _, _ => s

/-- The process of a child ends. -/
def exits (s : SupervisorState) (cid : Nat) : SupervisorState :=
  match s.children.get cid with
  | none => s
  | some c => { s with children := s.children.set cid { c with running := false } }

/-- A `close` event; it comes once, and after the end of the process. -/
def closes (s : SupervisorState) (cid : Nat) : SupervisorState :=
  match s.children.get cid with
  | none => s
  | some c =>
      if c.running = true ∨ c.closed = true then s
      else processEnded
        { s with children := s.children.set cid { c with closed := true } } c.session c.generation

/-- An `error` event; its listener hears the first. -/
def errors (s : SupervisorState) (cid : Nat) : SupervisorState :=
  match s.children.get cid with
  | none => s
  | some c =>
      if c.errored = true then s
      else processEnded
        { s with children := s.children.set cid { c with errored := true } } c.session c.generation

inductive Event
  | start (admission : Admission)
  | stop (programId : String) (programEpoch : Nat)
  | destroy
  | timeout (session : Nat)
  | exits (child : Nat)
  | closes (child : Nat)
  | errors (child : Nat)
  | fileDone (task : Nat) (ok : Bool) (spawned : Spawn)
deriving DecidableEq

def after (s : SupervisorState) : Event → SupervisorState
  | .start admission => start s admission
  | .stop programId programEpoch => stop s programId programEpoch
  | .destroy => destroy s
  | .timeout sid => timeout s sid
  | .exits cid => exits s cid
  | .closes cid => closes s cid
  | .errors cid => errors s cid
  | .fileDone tid ok spawned => fileDone s tid ok spawned

def Step (s : SupervisorState) (e : Event) (t : SupervisorState) : Prop := t = after s e

/-! ## What the supervisor is for -/

/-- A child runs only as the child of its program's registered session. -/
def OneProcess (s : SupervisorState) : Prop :=
  ∀ cid c, s.children.get cid = some c → c.running = true →
    ∃ x, s.objects.get c.session = some x ∧ x.child = some cid
      ∧ s.sessions.get x.programId = some c.session

/-- A program has at most one running child. -/
def AtMostOne (s : SupervisorState) : Prop :=
  ∀ cid c cid' c' x x', s.children.get cid = some c → c.running = true →
    s.objects.get c.session = some x → s.children.get cid' = some c' → c'.running = true →
    s.objects.get c'.session = some x' → x.programId = x'.programId → cid = cid'

/-- The file operation a call waits for. -/
def Task.pending (t : Task) (op : FileOp) : Prop := t.ops.head? = some op

/-- No directory at or above the output of a running child is being removed. -/
def OutputKept (s : SupervisorState) : Prop :=
  ∀ cid c x, s.children.get cid = some c → c.running = true →
    s.objects.get c.session = some x →
    ∀ tid t d, s.tasks.get tid = some t → t.pending (.remove d) → ¬ d <+: x.outputDirectory

/-- A session whose children have all closed and that waits for no file
operation has answered its stops. -/
def StopsAnswered (s : SupervisorState) : Prop :=
  ∀ sid x, s.objects.get sid = some x → x.stopping = true →
    (∀ cid c, s.children.get cid = some c → c.session = sid → c.closed = true) →
    (∀ tid t, s.tasks.get tid = some t → t.work.session? ≠ some sid) → x.completed = true

/-- Between two states: a session that has answered its stops runs no child
later, and gets no new one. -/
def StaysStopped (s t : SupervisorState) : Prop :=
  ∀ sid x, s.objects.get sid = some x → x.completed = true →
    ∀ cid c, t.children.get cid = some c → c.session = sid →
      c.running = false ∧ ∃ c', s.children.get cid = some c' ∧ c'.session = sid

/-! ## Where the races are excluded -/

/-- One directory is at or above the other. -/
def Overlap (d e : Directory) : Prop := d <+: e ∨ e <+: d

instance (d e : Directory) : Decidable (Overlap d e) := inferInstanceAs (Decidable (_ ∨ _))

/-- No other program's session uses the directory, and no call of the program
or on the directory is suspended. -/
def Undisturbed (s : SupervisorState) (admission : Admission) : Prop :=
  (∀ p sid x, s.sessions.get p = some sid → s.objects.get sid = some x →
    ¬ Overlap admission.outputDirectory x.outputDirectory)
  ∧ ∀ tid t, s.tasks.get tid = some t →
    admission.programId ≠ t.programId ∧ ¬ Overlap admission.outputDirectory t.outputDirectory

/-- The step takes no part in a race: a `start` that is not refused is
undisturbed, an `error` comes from a child that does not run, and no file
operation of a session fails that a `stop` waits for or may wait for. -/
def Orderly (s : SupervisorState) : Event → Prop
  | .start admission => s.sessions.get admission.programId = none → Undisturbed s admission
  | .errors cid => ∀ c, s.children.get cid = some c → c.running = false
  | .fileDone tid ok _ => ok = false → ∀ t, s.tasks.get tid = some t →
      match t.work with
      | .starting _ => True
      | .relaunching _ => False
      | .finishing sid => ∀ x, s.objects.get sid = some x → x.stopping = false
  | _ => True

end Supervisor

end WebrtcMinimize
