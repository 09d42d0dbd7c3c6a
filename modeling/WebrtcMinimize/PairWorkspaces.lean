import Mathlib.Algebra.Ring.Nat
import WebrtcMinimize.Json
import WebrtcMinimize.Maps
import WebrtcMinimize.Runs
import WebrtcMinimize.Sha256

/-!
# Pair workspaces

`PairWorkspaceStore` keeps workspaces of two members in seven tables. A
table with a primary key is a map here, and the two with an automatic key are
lists in the order of their keys. Every call runs to its end; its queries and
statements are the source's, in its order, and a statement that violates a
key fails. `transaction` is `BEGIN IMMEDIATE` with its `COMMIT` or `ROLLBACK`.

Identifiers and invite tokens the store draws are arguments, and so is the
time.
-/

namespace WebrtcMinimize

namespace Pair

open Checks Runs

/-! ## Texts -/

inductive PairError
  | workspace (code : String) (status : Nat)
  /-- A statement that violates a key. -/
  | constraint
deriving DecidableEq

def tokenOK (token : String) : Bool := spanOK refByte 8 64 (utf8 token)

/-- The white space of `\s`. -/
def spaceChar (c : Char) : Bool :=
  decide (9 ≤ c.toNat ∧ c.toNat ≤ 13) || decide (8192 ≤ c.toNat ∧ c.toNat ≤ 8202)
    || [32, 160, 5760, 8232, 8233, 8239, 8287, 12288, 65279].contains c.toNat

/-- Each run of white space is one space. -/
def collapse : Bool → List Char → List Char
  | _, [] => []
  | spaced, c :: cs =>
      if spaceChar c then if spaced then collapse true cs else ' ' :: collapse true cs
      else c :: collapse false cs

def trimmed (cs : List Char) : List Char :=
  ((cs.dropWhile spaceChar).reverse.dropWhile spaceChar).reverse

def utf16Units (c : Char) : List Nat :=
  if c.toNat < 65536 then [c.toNat]
  else [55296 + (c.toNat - 65536) / 1024, 56320 + (c.toNat - 65536) % 1024]

/-- The `length` of a text. -/
def utf16Length (s : String) : Nat := (s.toList.flatMap utf16Units).length

def normalizeTitle (value : String) : Option String :=
  let title := String.ofList (collapse false
    (trimmed (if value = "" then "Pair Workspace" else value).toList))
  if utf16Length title < 1 ∨ utf16Length title > 120
      ∨ title.toList.any (fun c => decide (c.toNat ≤ 31 ∨ c.toNat = 127)) then none
  else some title

/-- What stands before the last bar of a principal. -/
def tenantOf (principal : String) : Option String :=
  let tenant := (principal.toList.reverse.dropWhile (· ≠ '|')).tail.reverse
  if tenant = [] then none else some (String.ofList tenant)

def digest (bytes : List Nat) : String := Sha256.base64 bytes

/-- A JSON value; numbers, `true`, `false` and `null` are their texts. -/
inductive PairValue
  | literal (text : String)
  | str (text : String)
  | arr (items : List PairValue)
  | obj (fields : List (String × PairValue))

def commaJoined : List (List Nat) → List Nat
  | [] => []
  | [text] => text
  | text :: rest => text ++ 44 :: commaJoined rest

/-- The order of `sort`. -/
def KeyBefore (a b : String × List Nat) : Prop :=
  Json.lexLe (a.1.toList.flatMap utf16Units) (b.1.toList.flatMap utf16Units) = true

instance : DecidableRel KeyBefore := fun _ _ => inferInstanceAs (Decidable (_ = true))

def objectText (fields : List (String × List Nat)) : List Nat :=
  123 :: commaJoined ((fields.insertionSort KeyBefore).map fun f => Json.quote f.1 ++ 58 :: f.2)
    ++ [125]

mutual
def stableJson : PairValue → List Nat
  | .literal text => utf8 text
  | .str text => Json.quote text
  | .arr items => 91 :: commaJoined (stableItems items) ++ [93]
  | .obj fields => objectText (stableFields fields)
def stableItems : List PairValue → List (List Nat)
  | [] => []
  | v :: vs => stableJson v :: stableItems vs
def stableFields : List (String × PairValue) → List (String × List Nat)
  | [] => []
  | (k, v) :: fs => (k, stableJson v) :: stableFields fs
end

/-! ## Tables -/

inductive PairRole
  | owner
  | editor
  | viewer
deriving DecidableEq

structure Workspace where
  roomId : String
  title : String
  ownerPrincipal : String
  tenantId : String
  membershipRevision : Nat
  createdAt : Int
  updatedAt : Int

def Workspace.touched (w : Workspace) (now : Int) : Workspace := { w with updatedAt := now }

def Workspace.revised (w : Workspace) (now : Int) : Workspace :=
  { w with membershipRevision := w.membershipRevision + 1, updatedAt := now }

structure Membership where
  role : PairRole
  createdAt : Int

structure PairInvite where
  workspaceId : String
  role : PairRole
  uses : Nat
  maxUses : Nat
  expiresAt : Int

/-- What an event says, besides who says it. -/
structure EventContent where
  correlationId : String
  kind : String
  payloadJson : List Nat
deriving DecidableEq

structure PairEvent where
  sequence : Nat
  workspaceId : String
  eventId : String
  actorPrincipal : String
  content : EventContent
  digest : String
  createdAt : Int

structure Cursor where
  eventSequence : Nat
  updatedAt : Int

structure Presence where
  state : String
  documentId : String
  line : Int
  column : Int
  leaseId : String
  epoch : Int
  expiresAt : Int
  updatedAt : Int

structure OutboxRow where
  workspaceId : String
  eventSequence : Nat
  state : String
  createdAt : Int

structure PairTables where
  workspaces : KeyedMap String Workspace
  memberships : KeyedMap (String × String) Membership
  invites : KeyedMap String PairInvite
  events : List PairEvent
  /-- The last automatic key of `events`. -/
  lastSequence : Nat
  cursors : KeyedMap (String × String) Cursor
  presence : KeyedMap (String × String) Presence
  outbox : List OutboxRow

def emptyTables : PairTables := ⟨.empty, .empty, .empty, [], 0, .empty, .empty, []⟩

inductive PairResult
  | created (workspaceId roomId title : String)
  /-- `null` for a room without a workspace. -/
  | admitted (member : Option (String × PairRole))
  | appended (sequence : Nat) (eventId digest : String) (idempotent : Bool)
  | cursor (sequence : Nat) (updatedAt : Int)
  | present (row : Presence)
  | role (principal role : String) (membershipRevision : Nat)

/-! ## Statements -/

/-- A statement may fail, and a failed one has written nothing. -/
abbrev Statement := PairTables → Except PairError PairTables

def insertWorkspace (id : String) (w : Workspace) : Statement := fun t =>
  if (t.workspaces.get id).isSome ∨ t.workspaces.values.any (fun w' => w'.roomId = w.roomId) then
    .error .constraint
  else .ok { t with workspaces := t.workspaces.set id w }

def insertMembership (id principal : String) (m : Membership) : Statement := fun t =>
  if (t.memberships.get (id, principal)).isSome then .error .constraint
  else .ok { t with memberships := t.memberships.set (id, principal) m }

def insertInvite (tokenHash : String) (i : PairInvite) : Statement := fun t =>
  if (t.invites.get tokenHash).isSome then .error .constraint
  else .ok { t with invites := t.invites.set tokenHash i }

def insertEvent (workspaceId eventId actorPrincipal : String) (content : EventContent)
    (digest : String) (now : Int) : Statement := fun t =>
  if t.events.any fun e => decide (e.workspaceId = workspaceId ∧ e.eventId = eventId) then
    .error .constraint
  else
    .ok { t with
      events := t.events
        ++ [⟨t.lastSequence + 1, workspaceId, eventId, actorPrincipal, content, digest, now⟩]
      lastSequence := t.lastSequence + 1 }

def insertOutbox (row : OutboxRow) : Statement := fun t =>
  .ok { t with outbox := t.outbox ++ [row] }

/-- Updates a workspace that is there. -/
def updateWorkspace (id : String) (f : Workspace → Workspace) : Statement := fun t =>
  match t.workspaces.get id with
  | none => .ok t
  | some w => .ok { t with workspaces := t.workspaces.set id (f w) }

def useInvite (tokenHash : String) : Statement := fun t =>
  match t.invites.get tokenHash with
  | none => .ok t
  | some i => .ok { t with invites := t.invites.set tokenHash { i with uses := i.uses + 1 } }

/-- The tables after `body`, or before it where it has failed. -/
def transaction {α : Type} (t : PairTables)
    (body : PairTables → PairTables × Except PairError α) : PairTables × Except PairError α :=
  match body t with
  | (t', .ok a) => (t', .ok a)
  | (_, .error e) => (t, .error e)

/-- Runs the statements one after the other. -/
def execute {α : Type} (t : PairTables) : List Statement → α → PairTables × Except PairError α
  | [], a => (t, .ok a)
  | statement :: rest, a =>
      match statement t with
      | .error e => (t, .error e)
      | .ok t' => execute t' rest a

/-! ## Calls -/

variable (t : PairTables)

def authenticationRequired : PairError := .workspace "authentication_required" 401

def workspaceNotFound : PairError := .workspace "workspace_not_found" 404

def invalidPrincipal : PairError := .workspace "invalid_principal" 403

def create (roomId title ownerPrincipal workspaceId inviteToken : String) (now : Int) :
    PairTables × Except PairError PairResult :=
  if tokenOK roomId = false then
    (t, .error (.workspace "invalid_room_id" 400))
  else if ownerPrincipal = "" then
    (t, .error authenticationRequired)
  else
    match normalizeTitle title with
    | none => (t, .error (.workspace "invalid_workspace_title" 400))
    | some title =>
        transaction t fun t =>
          match tenantOf ownerPrincipal with
          | none => (t, .error invalidPrincipal)
          | some tenantId =>
              execute t [
                insertWorkspace workspaceId ⟨roomId, title, ownerPrincipal, tenantId, 1, now, now⟩,
                insertMembership workspaceId ownerPrincipal ⟨.owner, now⟩,
                insertInvite (digest (utf8 inviteToken))
                  ⟨workspaceId, .editor, 0, 1, now + 7 * 24 * 60 * 60 * 1000⟩]
                (.created workspaceId roomId title)

/-- `SELECT COUNT(*) FROM memberships WHERE workspace_id = ?`. -/
def memberCount (workspaceId : String) : Nat :=
  (t.memberships.keys.filter fun key => decide (key.1 = workspaceId)).length

def admitPrincipal (roomId principal inviteToken : String) (now : Int) :
    PairTables × Except PairError PairResult :=
  match t.workspaces.entries.find? fun e => decide (e.2.roomId = roomId) with
  | none => (t, .ok (.admitted none))
  | some (id, w) =>
      if principal = "" then
        (t, .error authenticationRequired)
      else
        match tenantOf principal with
        | none => (t, .error invalidPrincipal)
        | some tenant =>
            if tenant ≠ w.tenantId then
              (t, .error workspaceNotFound)
            else
              match t.memberships.get (id, principal) with
              | some m => (t, .ok (.admitted (some (id, m.role))))
              | none =>
                  if inviteToken = "" then
                    (t, .error (.workspace "workspace_membership_required" 403))
                  else
                    transaction t fun t =>
                      match (t.invites.get (digest (utf8 inviteToken))).filter fun i =>
                          decide (i.workspaceId = id ∧ i.uses < i.maxUses ∧ i.expiresAt ≥ now) with
                      | none => (t, .error (.workspace "invalid_workspace_invite" 403))
                      | some invitation =>
                          if memberCount t id ≥ 2 then
                            (t, .error (.workspace "workspace_full" 409))
                          else
                            execute t [ insertMembership id principal ⟨invitation.role, now⟩,
                              updateWorkspace id (·.revised now),
                              useInvite (digest (utf8 inviteToken))]
                              (.admitted (some (id, invitation.role)))

def membership (workspaceId principal : String) : Except PairError Membership :=
  if principal = "" then .error authenticationRequired
  else
    match t.memberships.get (workspaceId, principal) with
    | none => .error workspaceNotFound
    | some m => .ok m

def eventKinds : List String := ["note", "decision", "task", "artifact", "system"]

/-- An absent text is empty, and the payload is there when it is an object. -/
structure EventInput where
  eventId : String
  kind : String
  payload : Option (List (String × PairValue))
  correlationId : String

/-- What the digest of an event is taken of. -/
def eventText (workspaceId eventId : String) (content : EventContent) : List Nat :=
  utf8 "1" ++ 0 :: (utf8 workspaceId ++ 0 :: (utf8 eventId ++ 0 ::
    (utf8 content.correlationId ++ 0 :: (utf8 content.kind ++ 0 :: content.payloadJson))))

/-- The checks of an event before it is looked up. -/
def eventContent (input : EventInput) : Except PairError EventContent :=
  if tokenOK input.eventId = false then .error (.workspace "invalid_event_id" 400)
  else if input.kind ∉ eventKinds then .error (.workspace "invalid_event_kind" 400)
  else
    match input.payload with
    | none => .error (.workspace "invalid_event_payload" 400)
    | some fields =>
        let payloadJson := stableJson (.obj fields)
        if payloadJson.length > 16 * 1024 then .error (.workspace "event_payload_too_large" 400)
        else if input.correlationId ≠ "" ∧ tokenOK input.correlationId = false then
          .error (.workspace "invalid_correlation_id" 400)
        else
          .ok ⟨if input.correlationId ≠ "" then input.correlationId else input.eventId, input.kind,
            payloadJson⟩

def appendEvent (workspaceId principal : String) (input : EventInput) (now : Int) :
    PairTables × Except PairError PairResult :=
  match membership t workspaceId principal with
  | .error e => (t, .error e)
  | .ok m =>
      if m.role = .viewer then
        (t, .error (.workspace "workspace_write_denied" 403))
      else
        match eventContent input with
        | .error e => (t, .error e)
        | .ok content =>
            let eventDigest := digest (eventText workspaceId input.eventId content)
            match t.events.find? fun e =>
                decide (e.workspaceId = workspaceId ∧ e.eventId = input.eventId) with
            | some existing =>
                if existing.digest ≠ eventDigest then
                  (t, .error (.workspace "event_id_conflict" 409))
                else (t, .ok (.appended existing.sequence input.eventId eventDigest true))
            | none =>
                transaction t fun t =>
                  execute t [
                    insertEvent workspaceId input.eventId principal content eventDigest now,
                    insertOutbox ⟨workspaceId, t.lastSequence + 1, "pending", now⟩,
                    updateWorkspace workspaceId (·.touched now)]
                    (.appended (t.lastSequence + 1) input.eventId eventDigest false)

/-- The sequence is there when it is a safe integer. -/
def setCursor (workspaceId principal : String) (sequence : Option Int) (now : Int) :
    PairTables × Except PairError PairResult :=
  match membership t workspaceId principal with
  | .error e => (t, .error e)
  | .ok _ =>
      match sequence.filter fun n => decide (0 ≤ n) with
      | none => (t, .error (.workspace "invalid_cursor" 400))
      | some n =>
          let sequence := n.toNat
          if sequence > 0 ∧ ¬t.events.any (fun e =>
              decide (e.workspaceId = workspaceId ∧ e.sequence = sequence)) then
            (t, .error (.workspace "cursor_event_missing" 400))
          else if (t.cursors.get (workspaceId, principal)).any fun c =>
              decide (sequence < c.eventSequence) then
            (t, .error (.workspace "cursor_regression" 409))
          else
            ({ t with cursors := t.cursors.set (workspaceId, principal) ⟨sequence, now⟩ },
              .ok (.cursor sequence now))

def presenceStates : List String := ["active", "away", "offline"]

/-- The numbers are there when they are safe integers. -/
structure PresenceInput where
  state : String
  documentId : String
  line : Option Int
  column : Option Int
  leaseId : String
  epoch : Option Int
  ttlMs : Option Int

/-- The row that the input asks for. -/
def presenceRow (input : PresenceInput) (now : Int) : Except PairError Presence :=
  if tokenOK input.leaseId = false then .error (.workspace "invalid_presence_lease" 400)
  else
    match input.line, input.column, input.epoch, input.ttlMs with
    | some line, some column, some epoch, some ttlMs =>
        if input.state ∉ presenceStates ∨ utf16Length input.documentId > 160
            ∨ line < 0 ∨ line > 10000000 ∨ column < 0 ∨ column > 1000000 ∨ epoch < 1
            ∨ ttlMs < 5000 ∨ ttlMs > 60000 then
          .error (.workspace "invalid_presence" 400)
        else
          .ok ⟨input.state, input.documentId, line, column, input.leaseId, epoch, now + ttlMs, now⟩
    | _, _, _, _ => .error (.workspace "invalid_presence" 400)

def setPresence (workspaceId principal : String) (input : PresenceInput) (now : Int) :
    PairTables × Except PairError PairResult :=
  match membership t workspaceId principal with
  | .error e => (t, .error e)
  | .ok _ =>
      match presenceRow input now with
      | .error e => (t, .error e)
      | .ok row =>
          if (t.presence.get (workspaceId, principal)).any fun p => decide (row.epoch ≤ p.epoch) then
            (t, .error (.workspace "stale_presence_epoch" 409))
          else
            ({ t with presence := t.presence.set (workspaceId, principal) row }, .ok (.present row))

/-- Raises a workspace's revision where it is the expected one, and says how
many workspaces that were. -/
def raiseRevision (workspaceId : String) (expectedRevision : Int) (now : Int) (t : PairTables) :
    PairTables × Nat :=
  match t.workspaces.get workspaceId with
  | none => (t, 0)
  | some w =>
      if (w.membershipRevision : Int) = expectedRevision then
        ({ t with workspaces := t.workspaces.set workspaceId (w.revised now) }, 1)
      else (t, 0)

def withRole (memberships : KeyedMap (String × String) Membership) (key : String × String)
    (m : Membership) : Option PairRole → KeyedMap (String × String) Membership
  | none => memberships.erase key
  | some role => memberships.set key { m with role := role }

/-- Deletes a membership or gives it another role, unless it is the
owner's. -/
def writeRole (workspaceId principal : String) (role : Option PairRole) (t : PairTables) :
    PairTables × Nat :=
  match t.memberships.get (workspaceId, principal) with
  | none => (t, 0)
  | some m =>
      if m.role = .owner then (t, 0)
      else
        ({ t with memberships := withRole t.memberships (workspaceId, principal) m role }, 1)

/-- What `setRole` may set, where no role is to revoke. -/
def settableRole (role : String) : Option (Option PairRole) :=
  if role = "editor" then some (some .editor)
  else if role = "viewer" then some (some .viewer)
  else if role = "revoked" then some none
  else none

/-- The expected revision is there when it is a safe integer. -/
def setRole (workspaceId ownerPrincipal targetPrincipal role : String)
    (expectedRevision : Option Int) (now : Int) : PairTables × Except PairError PairResult :=
  match membership t workspaceId ownerPrincipal with
  | .error e => (t, .error e)
  | .ok m =>
      if m.role ≠ .owner then
        (t, .error (.workspace "workspace_owner_required" 403))
      else
        match settableRole role, expectedRevision with
        | some target, some expected =>
            if targetPrincipal = "" ∨ targetPrincipal = ownerPrincipal ∨ expected < 1 then
              (t, .error (.workspace "invalid_workspace_role" 400))
            else
              transaction t fun t =>
                match raiseRevision workspaceId expected now t with
                | (t, 1) =>
                    match writeRole workspaceId targetPrincipal target t with
                    | (t, 1) => (t, .ok (.role targetPrincipal role (expected.toNat + 1)))
                    | (t, _) => (t, .error (.workspace "workspace_member_missing" 404))
                | (t, _) => (t, .error (.workspace "membership_revision_conflict" 409))
        | _, _ => (t, .error (.workspace "invalid_workspace_role" 400))

inductive PairCall
  | create (roomId title ownerPrincipal workspaceId inviteToken : String) (now : Int)
  | admitPrincipal (roomId principal inviteToken : String) (now : Int)
  | appendEvent (workspaceId principal : String) (input : EventInput) (now : Int)
  | setCursor (workspaceId principal : String) (sequence : Option Int) (now : Int)
  | setPresence (workspaceId principal : String) (input : PresenceInput) (now : Int)
  | setRole (workspaceId ownerPrincipal targetPrincipal role : String)
      (expectedRevision : Option Int) (now : Int)

def call : PairCall → PairTables × Except PairError PairResult
  | .create roomId title ownerPrincipal workspaceId inviteToken now =>
      create t roomId title ownerPrincipal workspaceId inviteToken now
  | .admitPrincipal roomId principal inviteToken now => admitPrincipal t roomId principal inviteToken now
  | .appendEvent workspaceId principal input now => appendEvent t workspaceId principal input now
  | .setCursor workspaceId principal sequence now => setCursor t workspaceId principal sequence now
  | .setPresence workspaceId principal input now => setPresence t workspaceId principal input now
  | .setRole workspaceId ownerPrincipal targetPrincipal role expectedRevision now =>
      setRole t workspaceId ownerPrincipal targetPrincipal role expectedRevision now

end Pair

end WebrtcMinimize
