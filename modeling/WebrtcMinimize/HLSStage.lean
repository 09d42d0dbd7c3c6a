import Mathlib.Algebra.Ring.Nat
import WebrtcMinimize.HLSPlaylist
import WebrtcMinimize.Maps
import WebrtcMinimize.Runs

/-!
# The HLS stage

`sourceHLSStage` as a worker that does one file operation after the other.
`Publish` reads the encoder's private playlists, then copies their objects
into the public tree, replaces the playlists, the master last, and collects
what no playlist has listed for two cycles. `Invalidate` removes everything
published. What is left of a call is its list of tasks; between two tasks the
public tree is what anybody sees.

What the private tree holds, what the checks of fence and directories say,
and whether an operation fails is the environment's answer at each task: the
encoder writes, replaces and deletes its files at any time. Only the stage
writes the public tree.
-/

namespace WebrtcMinimize

namespace Packager

open Checks

/-! ## Files -/

/-- A path below the output directory. -/
structure PublicPath where
  dir : String
  name : List Nat
deriving DecidableEq

def hlsIndex : List Nat := utf8 "index.m3u8"

/-- The path of a rendition's playlist, or with no rendition the master's. -/
def indexPath (id : String) : PublicPath := ⟨id, hlsIndex⟩

/-- A file of the public tree; `id` is what `os.SameFile` compares. -/
structure PublicFile where
  id : Nat
  content : List Nat
deriving DecidableEq

/-- What `os.Lstat` says of a private file. -/
structure PendingInfo where
  id : Nat
  size : Nat
  modTime : Nat
  regular : Bool
deriving DecidableEq

structure SourceHLSPublished where
  id : Nat
  size : Nat
  source : Option PendingInfo
  seen : Nat
deriving DecidableEq

/-- A rename into the public tree, with the cycle it was made in. -/
structure Renamed where
  path : PublicPath
  cycle : Nat
  content : List Nat
deriving DecidableEq

structure AssignmentRendition where
  id : String
  width : Nat
  height : Nat
  videoBitsPerSecond : Nat
  audioBitsPerSecond : Nat
deriving DecidableEq

def renditionInitFilename (count i : Nat) : List Nat :=
  if count = 1 then utf8 "init.mp4" else utf8 "init_" ++ Json.digits i ++ utf8 ".mp4"

def masterText (renditions : List AssignmentRendition) : List Nat :=
  utf8 "#EXTM3U\n#EXT-X-VERSION:7\n" ++ renditions.flatMap fun r =>
    utf8 "#EXT-X-STREAM-INF:BANDWIDTH="
      ++ Json.digits ((r.videoBitsPerSecond + r.audioBitsPerSecond) * 115 / 100)
      ++ utf8 ",RESOLUTION=" ++ Json.digits r.width ++ utf8 "x" ++ Json.digits r.height
      ++ utf8 "\n" ++ utf8 r.id ++ utf8 "/index.m3u8\n"

/-! ## The stage -/

structure SourceHLSStage where
  epoch : Nat
  renditions : List AssignmentRendition
  published : KeyedMap PublicPath SourceHLSPublished
  windows : KeyedMap String SourceHLSWindow
  last : List Nat
  cycle : Nat
  maxBytes : Nat
  closed : Bool
  /-- The public tree. -/
  tree : KeyedMap PublicPath PublicFile
  /-- The renames so far. -/
  log : List Renamed
  /-- Renames whose file could not be looked at afterwards. -/
  unrecorded : List PublicPath

/-- The directories are new, so the public tree is empty. -/
def newSourceHLSStage (epoch : Nat) (renditions : List AssignmentRendition) (maxBytes : Nat)
    (valid : Bool) : Option SourceHLSStage :=
  let ids := renditions.map AssignmentRendition.id
  if epoch ≥ sourceHLSEpochLimit ∨ valid = false ∨ ids.length < 1 ∨ ids.length > 3
      ∨ maxBytes < 1 ∨ maxBytes > 128 * 1024 * 1024 ∨ ¬ids.Nodup
      ∨ ids.all (fun id => id = "low" ∨ id = "medium" ∨ id = "high") = false then
    none
  else
    some ⟨epoch, renditions, .empty, .empty, [], 0, maxBytes, false, .empty, [], []⟩

/-- The answers while one task is done. -/
structure HLSAnswer where
  /-- The fence and the directories, before the copy. -/
  valid : Bool
  /-- The temporary file could be made, and the copy and its close went well. -/
  copied : Bool
  /-- The fence and the directories, before the rename. -/
  still : Bool
  renamed : Bool
  /-- The identity of the temporary file. -/
  id : Nat
  /-- The renamed file could be looked at. -/
  stat : Bool
  /-- The fence after the rename. -/
  after : Bool
  /-- The private file, when it is there. -/
  pending : Option PendingInfo
  /-- It could be opened and was the same file. -/
  opened : Bool
  /-- What is read from it. -/
  bytes : List Nat
  /-- The directory of a file to remove is the stage's own. -/
  directory : Bool
  removed : Bool
  /-- The order in which the published files are walked. -/
  order : List PublicPath

namespace SourceHLSStage

variable (s : SourceHLSStage)

def fileBytes : Nat := (s.published.values.map SourceHLSPublished.size).sum

/-- What is at the destination is nothing, or what the stage put there. -/
def owned (path : PublicPath) : Bool :=
  match s.tree.get path with
  | none => true
  | some f => (s.published.get path).any fun p => decide (p.id = f.id)

/-- The rename took place, whether or not the stage finds out. -/
def rename (path : PublicPath) (id : Nat) (content : List Nat) : SourceHLSStage :=
  { s with
    tree := s.tree.set path ⟨id, content⟩
    log := s.log ++ [⟨path, s.cycle, content⟩] }

def commit (path : PublicPath) (content : List Nat) (size : Nat) (a : HLSAnswer) :
    SourceHLSStage × Bool :=
  let previous := ((s.published.get path).map SourceHLSPublished.size).getD 0
  if s.closed ∨ a.valid = false ∨ size < 1 ∨ size > 24 * 1024 * 1024 ∨ s.published.size ≥ 64
      ∨ s.owned path = false ∨ s.fileBytes - previous + size > s.maxBytes then
    (s, false)
  else if a.copied = false ∨ content.length ≠ size ∨ a.still = false ∨ a.renamed = false then
    (s, false)
  else
    let s := s.rename path a.id content
    if a.stat = false then
      ({ s with unrecorded := path :: s.unrecorded }, false)
    else
      ({ s with published := s.published.set path ⟨a.id, size, none, s.cycle⟩ }, a.after)

/-- A private file is the one that was copied. -/
def sameSource (old : SourceHLSPublished) (current : Option PendingInfo) : Bool :=
  match old.source, current with
  | some source, some info =>
      info.regular ∧ source.id = info.id ∧ info.size = source.size ∧ info.modTime = source.modTime
  | _, _ => false

def copyMedia (id : String) (name : List Nat) (a : HLSAnswer) : SourceHLSStage × Bool :=
  let path : PublicPath := ⟨id, name⟩
  match s.published.get path with
  | some old =>
      if sameSource old a.pending then
        ({ s with published := s.published.set path { old with seen := s.cycle } }, true)
      else
        (s, false)
  | none =>
      match a.pending with
      | none => (s, false)
      | some info =>
          if info.regular = false ∨ info.size < 1 ∨ info.size > 24 * 1024 * 1024
              ∨ a.opened = false then
            (s, false)
          else
            match s.commit path a.bytes info.size a with
            | (s, false) => (s, false)
            | (s, true) =>
                ({ s with
                  published := s.published.set path ⟨a.id, info.size, some info, s.cycle⟩ }, true)

/-- Gone already is as good as removed. -/
def remove (path : PublicPath) (p : SourceHLSPublished) (a : HLSAnswer) : SourceHLSStage × Bool :=
  if a.directory = false then
    (s, false)
  else
    match s.tree.get path with
    | none => (s, true)
    | some f =>
        if f.id ≠ p.id ∨ a.removed = false then (s, false)
        else ({ s with tree := s.tree.erase path }, true)

/-- One published file, removed and forgotten. -/
def collect (path : PublicPath) (a : HLSAnswer) : SourceHLSStage × Bool :=
  match s.published.get path with
  | none => (s, true)
  | some p =>
      match s.remove path p a with
      | (s, false) => (s, false)
      | (s, true) => ({ s with published := s.published.erase path }, true)

def expired (path : PublicPath) : Bool :=
  (s.published.get path).any fun p => decide (p.seen + 2 < s.cycle)

end SourceHLSStage

/-! ## Publish -/

inductive HLSTask
  | copy (id : String) (name : List Nat)
  | playlist (id : String) (plan : SourceHLSPlaylist)
  | master
  /-- Remember the windows, and find what is to be collected. -/
  | settle
  | collect (path : PublicPath)
  /-- A removal of `Invalidate`. -/
  | withdraw (path : PublicPath)
deriving DecidableEq

/-- What is read as a rendition's private playlist. -/
inductive PlaylistRead
  | missing
  | failed
  | text (data : List Nat)

inductive PlansRead
  | notReady
  | denied
  | plans (plans : List (String × SourceHLSPlaylist))

/-- The playlists of all renditions, each the epoch's and not behind what was
published. -/
def readPlans (durationOK : List Nat → Bool) (s : SourceHLSStage) (read : String → PlaylistRead) :
    List (AssignmentRendition × Nat) → PlansRead
  | [] => .plans []
  | (r, i) :: rest =>
      match read r.id with
      | .missing => .notReady
      | .failed => .denied
      | .text data =>
          match epochPlaylist durationOK s.epoch data
              (renditionInitFilename s.renditions.length i) with
          | none => .denied
          | some plan =>
              if (s.windows.get r.id).any fun previous =>
                  decide (plan.window.first < previous.first ∨ plan.window.last < previous.last) then
                .denied
              else
                match readPlans durationOK s read rest with
                | .plans plans => .plans ((r.id, plan) :: plans)
                | other => other

def publishTasks (plans : List (String × SourceHLSPlaylist)) : List HLSTask :=
  plans.flatMap (fun (id, plan) => plan.media.map (.copy id))
    ++ plans.map (fun (id, plan) => .playlist id plan) ++ [.master, .settle]

/-- The worker, with the plans of the last `Publish` and what is left to do. -/
structure HLSWorker where
  stage : SourceHLSStage
  key : List Nat
  plans : List (String × SourceHLSPlaylist)
  todo : List HLSTask
  /-- A `Publish` returned an error. -/
  failed : Bool
  /-- The last `Invalidate` returned an error. -/
  cleanupFailed : Bool

structure PublishAnswer where
  /-- The fence, before anything is read. -/
  valid : Bool
  /-- The private tree holds nothing unexpected. -/
  inventory : Bool
  read : String → PlaylistRead

namespace HLSWorker

variable (w : HLSWorker)

def start (s : SourceHLSStage) : HLSWorker := ⟨s, [], [], [], false, false⟩

/-- `Publish` up to its first file operation. -/
def publish (durationOK : List Nat → Bool) (a : PublishAnswer) : HLSWorker :=
  let s := w.stage
  if w.todo ≠ [] then
    w
  else if s.closed ∨ a.valid = false ∨ a.inventory = false then
    { w with failed := true }
  else
    match readPlans durationOK s a.read s.renditions.zipIdx with
    | .notReady => w
    | .denied => { w with failed := true }
    | .plans plans =>
        let key := plans.flatMap fun (_, plan) => plan.data
        if key = s.last then
          w
        else
          { w with
            stage := { s with cycle := s.cycle + 1 }
            key := key
            plans := plans
            todo := publishTasks plans }

/-- A task of `Publish` is over; its error ends the call. -/
def finish (rest : List HLSTask) : SourceHLSStage × Bool → HLSWorker
  | (s, true) => { w with stage := s, todo := rest }
  | (s, false) => { w with stage := s, todo := [], failed := true }

def settle : SourceHLSStage :=
  { w.stage with
    last := w.key
    windows := w.plans.foldl (fun windows (id, plan) => windows.set id plan.window)
      w.stage.windows }

def act (a : HLSAnswer) : HLSWorker :=
  match w.todo with
  | [] => w
  | .copy id name :: rest => w.finish rest (w.stage.copyMedia id name a)
  | .playlist id plan :: rest =>
      w.finish rest (w.stage.commit (indexPath id) plan.data plan.data.length a)
  | .master :: rest =>
      let text := masterText w.stage.renditions
      w.finish rest (w.stage.commit (indexPath "") text text.length a)
  | .settle :: rest =>
      { w with stage := w.settle, todo := rest ++ (a.order.filter w.stage.expired).map .collect }
  | .collect path :: rest => w.finish rest (w.stage.collect path a)
  | .withdraw path :: rest =>
      let (s, ok) := w.stage.collect path a
      { w with stage := s, todo := rest, cleanupFailed := w.cleanupFailed || !ok }

/-- `Invalidate` up to its first removal. -/
def invalidate (order : List PublicPath) : HLSWorker :=
  if w.todo ≠ [] then
    w
  else
    { w with
      stage := { w.stage with closed := true, last := [] }
      todo := order.map .withdraw
      cleanupFailed := false }

inductive Event
  | publish (a : PublishAnswer)
  | act (a : HLSAnswer)
  | invalidate (order : List PublicPath)

/-- A walk over the published files meets each of them once. -/
def Ordered : Event → Prop
  | .publish _ => True
  | .act a => w.todo.head? = some .settle → a.order.Perm w.stage.published.keys
  | .invalidate order => order.Perm w.stage.published.keys

def next (durationOK : List Nat → Bool) : Event → HLSWorker
  | .publish a => w.publish durationOK a
  | .act a => w.act a
  | .invalidate order => w.invalidate order

def Step (durationOK : List Nat → Bool) (w : HLSWorker) (e : Event) (w' : HLSWorker) : Prop :=
  w.Ordered e ∧ w.next durationOK e = w'

/-- Callers stop at an error. -/
def Stopping (w : HLSWorker) : Event → Prop
  | .publish _ => w.failed = false
  | _ => True

end HLSWorker

end Packager

end WebrtcMinimize
