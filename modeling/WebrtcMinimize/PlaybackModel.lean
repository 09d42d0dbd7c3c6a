import WebrtcMinimize.Attempts
import WebrtcMinimize.Maps
import WebrtcMinimize.ProgramCommand
import WebrtcMinimize.Runs

/-!
# The playback session store

A playback grant is exchanged for a session and its cookie; the session is
renewed with another grant of the same scope, and every media request is
authorized against it. The grant authority is asked in the middle of
`create`, `renew` and `authorize`, so each of them is cut at its awaits: it
is begun, waits among the `calls`, and goes on when an answer comes. What
stands between two awaits is one step.

The monotonic clock is read at the places the source reads it; a reading is
part of the event that makes it, `none` where the clock throws or reads no
finite number. An object is known by its number, since the source compares
sessions and their scopes as objects.
-/

namespace WebrtcMinimize

open Attempts Checks Runs

/-! ## Requests -/

namespace Playback

def resourceOK (resourceRef : String) : Bool := refOK "res_" resourceRef

def sessionIdOK (sessionId : String) : Bool := taggedOK "pbs_" 24 64 sessionId

def cookieNameOK (name : String) : Bool := taggedOK "__Secure-webrtc-broadcast-" 8 16 name

/-- A name of the class and then one of the endings. -/
def namedOK (cls : Nat → Bool) (hi : Nat) (endings : List String) (bytes : List Nat) : Bool :=
  let name := bytes.takeWhile cls
  let ending := bytes.dropWhile cls
  Nat.ble 1 name.length && Nat.ble name.length hi && endings.any fun e => decide (ending = utf8 e)

/-- `MEDIA_FILE` -/
def mediaFileOK (file : String) : Bool :=
  namedOK refByte 96 [".m3u8", ".mp4", ".m4s", ".vtt", ".key"] (utf8 file)
    || ["low/", "medium/", "high/"].any fun quality =>
      match stripTag? (utf8 quality) (utf8 file) with
      | none => false
      | some rest =>
          ["index.m3u8", "init.mp4", "init_0.mp4", "init_1.mp4", "init_2.mp4"].any
              (fun name => decide (rest = utf8 name))
            || match stripTag? (utf8 "segment_") rest with
              | none => false
              | some number => namedOK digitByte 12 [".m4s"] number

def manifestFile (file : String) : Bool := (utf8 ".m3u8").isSuffixOf (utf8 file)

/-- `/^bytes=\d{0,16}-\d{0,16}$/` -/
def rangeOK (range : String) : Bool :=
  match stripTag? (utf8 "bytes=") (utf8 range) with
  | none => false
  | some rest =>
      Nat.ble (rest.takeWhile digitByte).length 16 &&
        match rest.dropWhile digitByte with
        | 45 :: last => spanOK digitByte 0 16 last
        | _ => false

/-! ### Query strings -/

/-- The bytes a name or value of a query stands for. -/
def decodeComponent : List Nat → List Nat
  | [] => []
  | 37 :: hi :: lo :: rest =>
      match hexValue hi, hexValue lo with
      | some h, some l => (16 * h + l) :: decodeComponent rest
      | _, _ => 37 :: decodeComponent (hi :: lo :: rest)
  | 43 :: rest => 32 :: decodeComponent rest
  | b :: rest => b :: decodeComponent rest

/-- `URLSearchParams` -/
def searchParams (bytes : List Nat) : List (List Nat × List Nat) :=
  ((bytes.splitOn 38).filter (· ≠ [])).map fun pair =>
    (decodeComponent (pair.takeWhile (· ≠ 61)), decodeComponent ((pair.dropWhile (· ≠ 61)).drop 1))

/-- `UUID` -/
def uuidOK (bytes : List Nat) : Bool :=
  let hexDigit := fun b => digitByte b || between 'a' 'f' b || between 'A' 'F' b
  match bytes.splitOn 45 with
  | [a, b, v :: c, w :: d, e] =>
      spanOK hexDigit 8 8 a && spanOK hexDigit 4 4 b && between '1' '8' v && spanOK hexDigit 3 3 c
        && ((utf8 "89abAB").contains w) && spanOK hexDigit 3 3 d && spanOK hexDigit 12 12 e
  | _ => false

def parameterOK (manifest : Bool) (name value : List Nat) : Bool :=
  if name = utf8 "session" then uuidOK value
  else if name = utf8 "_HLS_msn" then manifest && spanOK digitByte 1 10 value
  else if name = utf8 "_HLS_part" then manifest && spanOK digitByte 1 4 value
  else if name = utf8 "_HLS_skip" then manifest && (value = utf8 "YES" || value = utf8 "v2")
  else false

def asciiText (bytes : List Nat) : String := String.ofList (bytes.map Char.ofNat)

/-- The query an upstream request carries. What is let through consists of
characters the serialization leaves alone. -/
def parseQuery (value : String) (manifest : Bool) : Option String :=
  if 512 < utf16Length value ∨ (utf8 value).any (fun b => Nat.ble b 31 || b == 127) then none
  else
    let bytes := match utf8 value with
      | 63 :: rest => rest
      | bytes => bytes
    let query := searchParams bytes
    if query.all (fun p => parameterOK manifest p.1 p.2) ∧ (query.map Prod.fst).Nodup then
      some ("&".intercalate (query.map fun p => asciiText p.1 ++ "=" ++ asciiText p.2))
    else none

/-! ### Cookies -/

/-- The white space that `trim` takes away. -/
def whiteSpace (c : Char) : Bool :=
  let n := c.toNat
  Nat.ble 9 n && Nat.ble n 13 || n == 32 || n == 160 || n == 5760
    || Nat.ble 8192 n && Nat.ble n 8202 || n == 8232 || n == 8233 || n == 8239 || n == 8287
    || n == 12288 || n == 65279

def trim (cs : List Char) : List Char :=
  ((cs.dropWhile whiteSpace).reverse.dropWhile whiteSpace).reverse

def cookieEntries (header : String) : List (String × String) :=
  if utf16Length header < 1 ∨ 8192 < utf16Length header then []
  else
    ((header.toList.splitOn ';').filterMap fun item =>
      match (trim item).splitOn '=' with
      | name :: value :: _ => some (String.ofList name, String.ofList value)
      | _ => none).filter fun p => cookieNameOK p.1 && sessionIdOK p.2

end Playback

/-! ## Capacity -/

/-- What a playback grant says, as the authority returns it. -/
structure PlaybackGrant where
  grantKind : String
  tenantId : String
  audienceRef : String
  deviceRef : String
  roomId : String
  programId : String
  programEpoch : Nat
  resourceRef : String
  policyId : String
  policyRevision : Nat
  expiresAt : Nat
deriving DecidableEq, Repr

/-- The `grantScope` of a session. -/
structure GrantScope where
  tenantId : String
  audienceRef : String
  deviceRef : String
  roomId : String
  programId : String
  programEpoch : Nat
  resourceRef : String
  policyId : String
  policyRevision : Nat
deriving DecidableEq, Repr

def PlaybackGrant.scope (grant : PlaybackGrant) : GrantScope where
  tenantId := grant.tenantId
  audienceRef := grant.audienceRef
  deviceRef := grant.deviceRef
  roomId := grant.roomId
  programId := grant.programId
  programEpoch := grant.programEpoch
  resourceRef := grant.resourceRef
  policyId := grant.policyId
  policyRevision := grant.policyRevision

structure PlaybackLimits where
  deployment : Nat
  tenant : Nat
  program : Nat
  audience : Nat
deriving DecidableEq, Repr

/-- `playbackCapacityScope` accepts the scope. -/
def GrantScope.counted (scope : GrantScope) : Bool :=
  refOK "tn_" scope.tenantId && refOK "prg_" scope.programId
    && (refOK "sub_" scope.audienceRef || refOK "pkr_" scope.audienceRef)

def PlaybackLimits.allows (limits : PlaybackLimits) (candidate : GrantScope)
    (occupied : List GrantScope) : Bool :=
  candidate.counted && decide (occupied.length < limits.deployment)
    && occupied.all GrantScope.counted
    && decide (1 + occupied.countP (fun other => other.tenantId = candidate.tenantId)
      ≤ limits.tenant)
    && decide (1 + occupied.countP (fun other => other.tenantId = candidate.tenantId
      ∧ other.programId = candidate.programId) ≤ limits.program)
    && decide (1 + occupied.countP (fun other => other.audienceRef = candidate.audienceRef)
      ≤ limits.audience)

structure ProgramCapacity where
  programSessions : Nat
  programLimit : Nat
  perAudienceLimit : Nat
  additionalSessions : Nat
  sharedBudgetsFit : Bool
deriving DecidableEq, Repr

def PlaybackLimits.inspectProgram (limits : PlaybackLimits) (tenantId programId : String)
    (occupied : List GrantScope) (additionalSessions : Nat) : Except String ProgramCapacity := do
  failIf (additionalSessions < 1 ∨ 10000 < additionalSessions ∨ 10000 < occupied.length)
    "invalid_broadcast_playback_inspection"
  failIf (occupied.all GrantScope.counted = false) "invalid_broadcast_playback_scope"
  let tenant := occupied.countP fun other => other.tenantId = tenantId
  let program := occupied.countP fun other =>
    other.tenantId = tenantId ∧ other.programId = programId
  return {
    programSessions := program
    programLimit := limits.program
    perAudienceLimit := limits.audience
    additionalSessions := additionalSessions
    sharedBudgetsFit := decide (occupied.length + additionalSessions ≤ limits.deployment
      ∧ tenant + additionalSessions ≤ limits.tenant
      ∧ program + additionalSessions ≤ limits.program) }

/-! ## Time -/

def playbackNotFound : String := "broadcast_playback_not_found"

/-- A supplied time and how the monotonic clock stood then and when it was
last read. -/
structure CheckTime where
  epoch : Nat
  start : Rat
  previous : Rat
deriving DecidableEq, Repr

namespace CheckTime

def read (reading : Option Rat) : Except String Rat :=
  match reading with
  | none => .error playbackNotFound
  | some value =>
      if value < 0 ∨ (maxSafeInteger : Rat) < value then .error playbackNotFound else .ok value

/-- `playbackCheckTime` -/
def new (epoch : Nat) (reading : Option Rat) : Except String CheckTime := do
  failIf (maxSafeInteger < epoch) playbackNotFound
  let start ← read reading
  return ⟨epoch, start, start⟩

/-- The time now. -/
def now (time : CheckTime) (reading : Option Rat) : Except String (Nat × CheckTime) := do
  let current ← read reading
  failIf (current < time.previous) playbackNotFound
  let now := time.epoch + (current - time.start).ceil.toNat
  failIf (maxSafeInteger < now) playbackNotFound
  return (now, { time with previous := current })

end CheckTime

/-! ## The store -/

structure PlaybackSession where
  sessionId : String
  cookieName : String
  resourceRef : String
  audienceRef : String
  authorizationHeader : String
  expiresAt : Nat
  grantScope : GrantScope
  /-- The session object. -/
  object : Nat
  /-- Its `grantScope` object. -/
  scopeObject : Nat
deriving DecidableEq, Repr

/-- How far `#authorizePlayback` is. -/
inductive PlaybackStage where
  | manifest
  | segment (grant : PlaybackGrant)
  | authorized (grant : PlaybackGrant)
deriving DecidableEq, Repr

/-- A call that waits. -/
inductive PlaybackCall where
  | create (authorizationHeader resourceRef : String) (time : CheckTime) (stage : PlaybackStage)
  | renew (authorizationHeader : String) (session : PlaybackSession) (time : CheckTime)
      (stage : PlaybackStage)
  | authorize (session : PlaybackSession) (normalizedQuery file : String) (time : CheckTime)
deriving DecidableEq, Repr

structure PlaybackStore where
  sessions : KeyedMap String PlaybackSession
  calls : KeyedMap Nat PlaybackCall
  /-- Calls begun so far. -/
  begun : Nat
  /-- Objects made so far. -/
  objects : Nat

structure PlaybackConfig where
  origin : String
  limits : PlaybackLimits

/-- What a call returns. -/
inductive PlaybackResult where
  | session (playbackSessionId manifestUrl : String) (expiresAt : Nat) (setCookie : List String)
  | request (sessionId tenantId audienceRef upstreamPath authorizationHeader cacheControl : String)
deriving DecidableEq, Repr

def PlaybackResult.sessionId : PlaybackResult → String
  | .session playbackSessionId _ _ _ => playbackSessionId
  | .request sessionId _ _ _ _ _ => sessionId

structure CreateInput where
  authorizationHeader : String
  resourceRef : String
  origin : String
  now : Nat
deriving DecidableEq, Repr

structure RenewInput where
  authorizationHeader : String
  sessionId : String
  resourceRef : String
  cookieHeader : String
  origin : String
  now : Nat
deriving DecidableEq, Repr

structure RequestInput where
  cookieHeader : String
  method : String
  resourceRef : String
  file : String
  query : String
  range : String
  /-- Empty where the request names none. -/
  origin : String
  now : Nat
deriving DecidableEq, Repr

structure CloseInput where
  sessionId : String
  cookieHeader : String
  origin : String
  now : Nat
deriving DecidableEq, Repr

/-- The clock is read when a call begins and again before the authority is
asked. -/
structure Readings where
  start : Option Rat
  next : Option Rat
deriving DecidableEq, Repr

/-- What a waiting call goes on with. -/
structure Answer where
  /-- The authority's grant, `none` where it throws. -/
  grant : Option PlaybackGrant
  reading : Option Rat
  /-- A second reading, of a `create` that stores its session. -/
  next : Option Rat
  /-- What `idFactory` makes. -/
  sessionId : String
deriving DecidableEq, Repr

namespace PlaybackStore

def empty : PlaybackStore := ⟨.empty, .empty, 0, 0⟩

def prune (now : Nat) (s : PlaybackStore) : PlaybackStore :=
  { s with sessions := s.sessions.keep fun _ session => decide (now < session.expiresAt) }

def scopes (s : PlaybackStore) : List GrantScope :=
  s.sessions.values.map PlaybackSession.grantScope

/-- A call waits for its next answer. -/
def suspend (call : PlaybackCall) (s : PlaybackStore) : PlaybackStore :=
  { s with calls := s.calls.set s.begun call, begun := s.begun + 1 }

def await (id : Nat) (call : PlaybackCall) (s : PlaybackStore) : PlaybackStore :=
  { s with calls := s.calls.set id call }

def settle (id : Nat) (s : PlaybackStore) : PlaybackStore :=
  { s with calls := s.calls.erase id }

end PlaybackStore

/-- The cookie header holds the session's cookie. -/
def PlaybackSession.ownsCookie (session : PlaybackSession) (cookieHeader : String) : Bool :=
  (Playback.cookieEntries cookieHeader).any fun p =>
    p.1 = session.cookieName ∧ p.2 = session.sessionId

def sessionCookies (session : PlaybackSession) (maxAge : Nat) : List String :=
  let value := if 0 < maxAge then session.sessionId else ""
  let attributes := "Max-Age=" ++ toString maxAge ++ "; Secure; HttpOnly; SameSite=Strict"
  [session.cookieName ++ "=" ++ value ++ "; Path=/broadcast/play/" ++ session.resourceRef ++ "/; "
      ++ attributes,
    session.cookieName ++ "=" ++ value ++ "; Path=/api/broadcast/playback-sessions/"
      ++ session.sessionId ++ "; " ++ attributes]

namespace BroadcastPlaybackSessionStore

open Playback

def create (config : PlaybackConfig) (input : CreateInput) (readings : Readings) :
    Stateful PlaybackStore Unit := do
  failWhen (resourceOK input.resourceRef = false ∨ input.origin ≠ config.origin
    ∨ maxSafeInteger < input.now) playbackNotFound
  let time ← check (CheckTime.new input.now readings.start)
  modify (PlaybackStore.prune input.now)
  let (_, time) ← check (time.now readings.next)
  modify (PlaybackStore.suspend (.create input.authorizationHeader input.resourceRef time .manifest))

def renew (config : PlaybackConfig) (input : RenewInput) (readings : Readings) :
    Stateful PlaybackStore Unit := do
  failWhen (sessionIdOK input.sessionId = false ∨ resourceOK input.resourceRef = false
    ∨ input.origin ≠ config.origin ∨ maxSafeInteger < input.now) playbackNotFound
  let time ← check (CheckTime.new input.now readings.start)
  modify (PlaybackStore.prune input.now)
  let s ← get
  match s.sessions.get input.sessionId with
  | none => check (.error playbackNotFound)
  | some session => do
      failWhen (session.ownsCookie input.cookieHeader = false
        ∨ session.resourceRef ≠ input.resourceRef) playbackNotFound
      let (_, time) ← check (time.now readings.next)
      modify (PlaybackStore.suspend (.renew input.authorizationHeader session time .manifest))

/-- `#requestSession`: the session a media request is for, and its query. -/
def requestSession (config : PlaybackConfig) (input : RequestInput) :
    Stateful PlaybackStore (PlaybackSession × String) := do
  failWhen (input.method ∉ ["GET", "HEAD"] ∨ resourceOK input.resourceRef = false
    ∨ mediaFileOK input.file = false ∨ (input.origin ≠ "" ∧ input.origin ≠ config.origin)
    ∨ maxSafeInteger < input.now ∨ (input.range ≠ "" ∧ rangeOK input.range = false))
    playbackNotFound
  modify (PlaybackStore.prune input.now)
  let s ← get
  let sessions := (cookieEntries input.cookieHeader).filterMap fun p =>
    (s.sessions.get p.2).filter fun session => session.cookieName = p.1
  match sessions.find? fun session => session.resourceRef = input.resourceRef with
  | none => check (.error playbackNotFound)
  | some session => do
      failWhen (session.expiresAt ≤ input.now) playbackNotFound
      match parseQuery input.query (manifestFile input.file) with
      | none => check (.error playbackNotFound)
      | some query => return (session, query)

/-- The bucket a request is counted in; where there is none, the caller is
told so and not failed. -/
def rateLimitKey (config : PlaybackConfig) (input : RequestInput) : Stateful PlaybackStore String := do
  let (session, _) ← requestSession config input
  return session.sessionId

def authorize (config : PlaybackConfig) (input : RequestInput) (readings : Readings) :
    Stateful PlaybackStore Unit := do
  let (session, query) ← requestSession config input
  let time ← check (CheckTime.new input.now readings.start)
  let (_, time) ← check (time.now readings.next)
  modify (PlaybackStore.suspend (.authorize session query input.file time))

def close (config : PlaybackConfig) (input : CloseInput) : Stateful PlaybackStore (List String) := do
  modify (PlaybackStore.prune input.now)
  let s ← get
  match s.sessions.get input.sessionId with
  | none => check (.error playbackNotFound)
  | some session => do
      failWhen (input.origin ≠ config.origin ∨ session.ownsCookie input.cookieHeader = false)
        playbackNotFound
      modify fun s => { s with sessions := s.sessions.erase input.sessionId }
      return sessionCookies session 0

def inspectProgramCapacity (config : PlaybackConfig) (tenantId programId : String)
    (additionalSessions now : Nat) : Stateful PlaybackStore ProgramCapacity := do
  failWhen (refOK "tn_" tenantId = false ∨ refOK "prg_" programId = false)
    "invalid_broadcast_playback_scope"
  failWhen (maxSafeInteger < now ∨ additionalSessions < 1 ∨ 10000 < additionalSessions)
    "invalid_broadcast_playback_inspection"
  modify (PlaybackStore.prune now)
  let s ← get
  check (config.limits.inspectProgram tenantId programId s.scopes additionalSessions)

/-- `Math.max(1, Math.floor((grant.expiresAt - now) / 1_000))` -/
def maxAge (expiresAt now : Nat) : Nat := max 1 ((expiresAt - now) / 1000)

/-- What is left of `create` once playback is authorized. -/
def storeSession (config : PlaybackConfig) (authorizationHeader resourceRef : String)
    (time : CheckTime) (grant : PlaybackGrant) (answer : Answer) :
    Stateful PlaybackStore PlaybackResult := do
  let (now, time) ← check (time.now answer.reading)
  modify (PlaybackStore.prune now)
  failWhen (grant.grantKind ≠ "playback" ∨ grant.resourceRef ≠ resourceRef
    ∨ maxSafeInteger < grant.expiresAt ∨ grant.expiresAt ≤ now) playbackNotFound
  failWhen (grant.scope.counted = false) playbackNotFound
  let s ← get
  failWhen (config.limits.allows grant.scope s.scopes = false)
    "broadcast_playback_session_quota_reached"
  failWhen (sessionIdOK answer.sessionId = false ∨ (s.sessions.get answer.sessionId).isSome)
    "invalid_broadcast_playback_session_id"
  let (now, _) ← check (time.now answer.next)
  failWhen (grant.expiresAt ≤ now) playbackNotFound
  let digest := Sha256.base64 (utf8 answer.sessionId)
  let session : PlaybackSession := {
    sessionId := answer.sessionId
    cookieName := "__Secure-webrtc-broadcast-" ++ String.ofList (digest.toList.take 12)
    resourceRef := resourceRef
    audienceRef := grant.audienceRef
    authorizationHeader := authorizationHeader
    expiresAt := grant.expiresAt
    grantScope := grant.scope
    object := s.objects
    scopeObject := s.objects }
  modify fun s => { s with
    sessions := s.sessions.set answer.sessionId session
    objects := s.objects + 1 }
  return .session answer.sessionId ("/broadcast/play/" ++ resourceRef ++ "/index.m3u8")
    grant.expiresAt (sessionCookies session (maxAge grant.expiresAt now))

/-- What is left of `renew` once playback is authorized. -/
def renewSession (authorizationHeader : String) (session : PlaybackSession) (time : CheckTime)
    (grant : PlaybackGrant) (answer : Answer) : Stateful PlaybackStore PlaybackResult := do
  let (now, _) ← check (time.now answer.reading)
  modify (PlaybackStore.prune now)
  let s ← get
  failWhen (grant.grantKind ≠ "playback" ∨ grant.resourceRef ≠ session.resourceRef
    ∨ maxSafeInteger < grant.expiresAt ∨ grant.expiresAt ≤ now ∨ session.expiresAt ≤ now
    ∨ grant.scope ≠ session.grantScope
    ∨ (s.sessions.get session.sessionId).map PlaybackSession.object ≠ some session.object)
    playbackNotFound
  let renewed := { session with
    authorizationHeader := authorizationHeader
    expiresAt := grant.expiresAt
    object := s.objects }
  modify fun s => { s with
    sessions := s.sessions.set session.sessionId renewed
    objects := s.objects + 1 }
  return .session session.sessionId ("/broadcast/play/" ++ session.resourceRef ++ "/index.m3u8")
    grant.expiresAt (sessionCookies renewed (maxAge grant.expiresAt now))

/-- What is left of `authorize` once the authority let the request pass. -/
def releaseRequest (session : PlaybackSession) (normalizedQuery file : String) (time : CheckTime)
    (answer : Answer) : Stateful PlaybackStore PlaybackResult := do
  let (currentTime, _) ← check (time.now answer.reading)
  modify (PlaybackStore.prune currentTime)
  let s ← get
  failWhen (session.expiresAt ≤ currentTime
    ∨ (s.sessions.get session.sessionId).map PlaybackSession.scopeObject
      ≠ some session.scopeObject) playbackNotFound
  return .request session.sessionId session.grantScope.tenantId session.grantScope.audienceRef
    ("/" ++ session.resourceRef ++ "/" ++ file
      ++ if normalizedQuery = "" then "" else "?" ++ normalizedQuery)
    session.authorizationHeader "private, no-store, max-age=0"

/-- One stage of `#authorizePlayback`: a throw of the authority ends the call. -/
def authorizePlayback (time : CheckTime) (answer : Answer) :
    PlaybackStage → Except String (CheckTime × PlaybackStage)
  | .manifest =>
      match answer.grant with
      | none => .error playbackNotFound
      | some grant => do
          let (now, time) ← time.now answer.reading
          failIf (maxSafeInteger < grant.expiresAt ∨ grant.expiresAt ≤ now) playbackNotFound
          return (time, .segment grant)
  | .segment grant =>
      match answer.grant with
      | none => .error playbackNotFound
      | some _ => .ok (time, .authorized grant)
  | .authorized grant => .ok (time, .authorized grant)

/-- A call goes on: it waits again, or it returns. -/
def goOn (config : PlaybackConfig) (id : Nat) (answer : Answer) :
    PlaybackCall → Stateful PlaybackStore (Option PlaybackResult)
  | .create authorizationHeader resourceRef time (.authorized grant) => do
      modify (PlaybackStore.settle id)
      return some (← storeSession config authorizationHeader resourceRef time grant answer)
  | .create authorizationHeader resourceRef time stage => do
      modify (PlaybackStore.settle id)
      let (time, stage) ← check (authorizePlayback time answer stage)
      modify (PlaybackStore.await id (.create authorizationHeader resourceRef time stage))
      return none
  | .renew authorizationHeader session time (.authorized grant) => do
      modify (PlaybackStore.settle id)
      return some (← renewSession authorizationHeader session time grant answer)
  | .renew authorizationHeader session time stage => do
      modify (PlaybackStore.settle id)
      let (time, stage) ← check (authorizePlayback time answer stage)
      modify (PlaybackStore.await id (.renew authorizationHeader session time stage))
      return none
  | .authorize session normalizedQuery file time => do
      modify (PlaybackStore.settle id)
      failWhen (answer.grant = none) playbackNotFound
      return some (← releaseRequest session normalizedQuery file time answer)

def resume (config : PlaybackConfig) (id : Nat) (answer : Answer) :
    Stateful PlaybackStore (Option PlaybackResult) := do
  let s ← get
  match s.calls.get id with
  | none => return none
  | some call => goOn config id answer call

end BroadcastPlaybackSessionStore

inductive PlaybackEvent where
  | create (input : CreateInput) (readings : Readings)
  | renew (input : RenewInput) (readings : Readings)
  | authorize (input : RequestInput) (readings : Readings)
  | rateLimitKey (input : RequestInput)
  | close (input : CloseInput)
  | inspectProgramCapacity (tenantId programId : String) (additionalSessions now : Nat)
  /-- The answer that a waiting call gets. -/
  | resume (id : Nat) (answer : Answer)
deriving DecidableEq, Repr

def PlaybackEvent.apply (config : PlaybackConfig) (s : PlaybackStore) : PlaybackEvent → PlaybackStore
  | .create input readings => after (BroadcastPlaybackSessionStore.create config input readings s)
  | .renew input readings => after (BroadcastPlaybackSessionStore.renew config input readings s)
  | .authorize input readings =>
      after (BroadcastPlaybackSessionStore.authorize config input readings s)
  | .rateLimitKey input => after (BroadcastPlaybackSessionStore.rateLimitKey config input s)
  | .close input => after (BroadcastPlaybackSessionStore.close config input s)
  | .inspectProgramCapacity tenantId programId additionalSessions now =>
      after (BroadcastPlaybackSessionStore.inspectProgramCapacity config tenantId programId
        additionalSessions now s)
  | .resume id answer => after (BroadcastPlaybackSessionStore.resume config id answer s)

def PlaybackStep (config : PlaybackConfig) (s : PlaybackStore) (event : PlaybackEvent)
    (t : PlaybackStore) : Prop :=
  t = event.apply config s

end WebrtcMinimize
