import Tollgate.Failure
import Tollgate.Rate.Bucket
import Tollgate.Recency
import Tollgate.Schema

/-!
Rate limits of many callers, in bounded memory.

Every caller's bucket lives in one of several shards, the one that its key is placed in. At most
`maxBuckets` buckets are kept; beyond that a new caller drops the bucket touched longest ago, out of
its own shard if that holds any, else out of the next one that does.
-/

namespace Tollgate.Rate

/-- The limits of ordinary and of promoted callers. -/
structure Policy where
  default : Limits
  promoted : Limits
deriving DecidableEq

/-- Ten requests at once and one every two seconds, and for promoted callers twenty and one every
second. -/
def Policy.standard : Policy :=
  ⟨⟨10, .ofSeconds 2⟩, ⟨20, .ofSeconds 1⟩⟩

/-- Which limits a bucket follows when the policy changes. -/
inductive Tier
  | default
  | promoted
  | custom (limits : Limits)
deriving DecidableEq

def Tier.limits (policy : Policy) : Tier → Limits
  | .default => policy.default
  | .promoted => policy.promoted
  | .custom limits => limits

/-- A policy and how many policies came before it. -/
structure Edition where
  generation : Nat
  policy : Policy
deriving DecidableEq

/-- What is kept of one caller. -/
structure Entry where
  bucket : Bucket
  tier : Tier
  /-- The generation of the policy that the bucket's limits were taken from. -/
  generation : Nat
deriving DecidableEq

namespace Entry

def fresh (tier : Tier) (edition : Edition) (now : Instant) : Entry :=
  ⟨.full (tier.limits edition.policy) now, tier, edition.generation⟩

/-- Moves to a tier of the policy in force; the tokens refilled until now are kept. -/
def retier (e : Entry) (tier : Tier) (edition : Edition) (now : Instant) : Entry :=
  ⟨(e.bucket.refill now).updateLimits (tier.limits edition.policy), tier, edition.generation⟩

/-- Adopts the policy in force, if it has changed since the last touch. -/
def sync (e : Entry) (edition : Edition) (now : Instant) : Entry :=
  if e.generation = edition.generation then e else e.retier e.tier edition now

end Entry

/-- A decision on one request. -/
inductive Admission
  | allowed
  | denied
deriving DecidableEq, Repr

namespace Admission

def name : Admission → String
  | .allowed => "allowed"
  | .denied => "denied"

def ofName? : String → Option Admission
  | "allowed" => some .allowed
  | "denied" => some .denied
  | _ => none

def codec : Codec Admission :=
  .choice ofName?

def isAllowed : Admission → Bool
  | .allowed => true
  | .denied => false

end Admission

/-- How many of each there have been. -/
structure Counts where
  allowed : Nat := 0
  denied : Nat := 0
  evicted : Nat := 0
  promoted : Nat := 0
  purged : Nat := 0
deriving DecidableEq, Repr

/-- The settings of a limiter. -/
structure LimiterSettings where
  maxBuckets : Nat := 1000
  shards : Nat := 16
  /-- Buckets untouched for this long may be purged. -/
  idleTtl : Duration := .ofSeconds 600
  policy : Policy := .standard
deriving DecidableEq

/-- The buckets of all callers. -/
structure Limiter (K : Type) where
  shards : List (Recency K Entry)
  /-- Keys with equal remainders modulo the number of shards share a shard. -/
  place : K → Nat
  maxBuckets : Nat
  /-- How many slots for buckets are taken. -/
  tracked : Nat
  edition : Edition
  idleTtl : Duration
  counts : Counts
  isShutDown : Bool

namespace Limiter

variable {K : Type}

/-- A limiter without callers. There is at least one shard and room for at least one bucket. -/
def new (settings : LimiterSettings) (place : K → Nat) : Limiter K where
  shards := List.replicate (max 1 settings.shards) .empty
  place := place
  maxBuckets := max 1 settings.maxBuckets
  tracked := 0
  edition := ⟨0, settings.policy⟩
  idleTtl := settings.idleTtl
  counts := {}
  isShutDown := false

/-- The number of bytes of a shard without buckets and its lock. -/
def shardBytes : Nat := 72

/-- A limiter without callers, unless it has too many shards. -/
def create (settings : LimiterSettings) (place : K → Nat) : Except Crash (Limiter K) :=
  if settings.shards * shardBytes ≤ longestList then .ok (new settings place)
  else .error .lengthOverflow

/-- The number of the shard that a key belongs to. -/
def home (l : Limiter K) (k : K) : Nat :=
  l.place k % l.shards.length

def shardAt (l : Limiter K) (index : Nat) : Recency K Entry :=
  l.shards.getD index .empty

def setShard (l : Limiter K) (index : Nat) (shard : Recency K Entry) : Limiter K :=
  { l with shards := l.shards.set index shard }

/-- The first shard with a bucket, looking around from `start`. -/
def occupied? (l : Limiter K) (start : Nat) : Option Nat :=
  ((List.range l.shards.length).map fun offset => (start + offset) % l.shards.length).find?
    fun index => !(l.shardAt index).isEmpty

/-- Takes a slot for a new bucket: a free one while there are any, else that of an evicted bucket. If
there is nothing to evict either, a slot beyond the cap is taken. -/
def reserveSlot (l : Limiter K) (start : Nat) : Limiter K :=
  if l.tracked < l.maxBuckets then { l with tracked := l.tracked + 1 }
  else
    match l.occupied? start with
    | some index =>
      { l.setShard index (l.shardAt index).dropOldest with
        counts := { l.counts with evicted := l.counts.evicted + 1 } }
    | none => { l with tracked := l.tracked + 1 }

/-- How many buckets some shards hold together. -/
def held (shards : List (Recency K Entry)) : Nat :=
  shards.foldr (fun shard rest => shard.size + rest) 0

def size (l : Limiter K) : Nat :=
  held l.shards

def policy (l : Limiter K) : Policy :=
  l.edition.policy

/-- Publishes other limits. Buckets adopt them when they are next touched. -/
def updatePolicy (l : Limiter K) (policy : Policy) : Limiter K :=
  { l with edition := ⟨l.edition.generation + 1, policy⟩ }

/-- Whether a bucket has been left alone for the idle time. -/
def isIdle (l : Limiter K) (now : Instant) (e : Entry) : Bool :=
  l.idleTtl.nanos ≤ now.since e.bucket.lastRefill

/-- Drops idle buckets; also gives their number. -/
def purgeIdle (l : Limiter K) (now : Instant) : Nat × Limiter K :=
  let kept := l.shards.map (·.filter fun _ e => !l.isIdle now e)
  let purged := l.size - held kept
  (purged, { l with
    shards := kept
    tracked := l.tracked - purged
    counts := { l.counts with purged := l.counts.purged + purged } })

def shutDown (l : Limiter K) : Limiter K :=
  { l with isShutDown := true }

variable [DecidableEq K]

/-- The entry of a caller; looking does not touch it. -/
def find? (l : Limiter K) (k : K) : Option Entry :=
  (l.shardAt (l.home k)).find? k

def contains (l : Limiter K) (k : K) : Bool :=
  (l.find? k).isSome

/-- Gives a caller an entry and touches it. -/
def put (l : Limiter K) (k : K) (e : Entry) : Limiter K :=
  l.setShard (l.home k) ((l.shardAt (l.home k)).put k e)

/-- The caller's entry, a fresh one if there was none, for which a slot is taken. -/
def entryFor (l : Limiter K) (k : K) (tier : Tier) (now : Instant) : Entry × Limiter K :=
  match l.find? k with
  | some e => (e, l)
  | none => (.fresh tier l.edition now, l.reserveSlot (l.home k))

/-- Admits or denies a request. -/
def admitAt (l : Limiter K) (k : K) (now : Instant) : Admission × Limiter K :=
  let (e, l) := l.entryFor k .default now
  let e := e.sync l.edition now
  let (allowed, bucket) := e.bucket.tryConsume now
  let l := l.put k { e with bucket }
  if allowed then
    (.allowed, { l with counts := { l.counts with allowed := l.counts.allowed + 1 } })
  else (.denied, { l with counts := { l.counts with denied := l.counts.denied + 1 } })

/-- Puts a caller into a tier; it keeps its tokens. -/
def setTier (l : Limiter K) (k : K) (tier : Tier) (now : Instant) : Limiter K :=
  let (e, l) := l.entryFor k tier now
  let l := l.put k (e.retier tier l.edition now)
  { l with counts := { l.counts with promoted := l.counts.promoted + 1 } }

/-- Gives a caller the limits of promoted ones. -/
def promote (l : Limiter K) (k : K) (now : Instant) : Limiter K :=
  l.setTier k .promoted now

/-- Gives a caller limits of its own. -/
def promoteCaller (l : Limiter K) (k : K) (limits : Limits) (now : Instant) : Limiter K :=
  l.setTier k (.custom limits) now

/-- Whether a caller has other than ordinary limits. -/
def isPromoted (l : Limiter K) (k : K) : Bool :=
  (l.find? k).any fun e => e.tier ≠ .default

/-- How long a caller has to wait for a token; an unknown caller need not wait. -/
def retryAfter (l : Limiter K) (k : K) (now : Instant) : Duration :=
  match l.find? k with
  | some e => e.bucket.timeUntilAvailable now
  | none => .zero

/-- The tokens that a caller had when last touched. -/
def tokens? (l : Limiter K) (k : K) : Option Float :=
  (l.find? k).map (·.bucket.tokens)

end Limiter

end Tollgate.Rate
