import SeriesStorage.Table
import SeriesStorage.Number.Shortest
import SeriesStorage.Number.Literal

/-!
# A key/value server

`exec command keyspace` is what one command answers and does.  A command that fails leaves
everything as it was.  Nothing ever expires here: instants of expiry and leases are only remembered.

* A sorted set holds each member once, with its score; `pointsBetween` gives the members with a
  score between two bounds, both included, by score and then by member.
* `release` deletes a key only if it holds the given token.
-/

namespace SeriesStorage

namespace Server

/-! ## Contents -/

/-- What a key can hold. -/
inductive Value
  | string (text : String)
  | set (members : List String)
  | sortedSet (scores : Table String Binary64)
deriving DecidableEq, Repr

/-- A key's value, with what was said about its end. -/
structure Entry where
  value : Value
  /-- The second at which it was told to expire. -/
  expireAt : Option UInt64 := none
  /-- The lease in milliseconds with which it was set. -/
  leaseMs : Option UInt64 := none
deriving DecidableEq, Repr

/-- All keys of a server. -/
abbrev Keyspace := Table String Entry

/-! ## Commands -/

/-- A command to a server. -/
inductive Command
  | ping
  | auth (password : String)
  | select (database : Int)
  | get (key : String)
  | set (key text : String)
  /-- Sets a key that holds nothing, for a lease in milliseconds. -/
  | setNew (key token : String) (leaseMs : UInt64)
  | increment (key : String)
  | delete (keys : List String)
  | addMember (key member : String)
  | removeMember (key member : String)
  | addPoints (key : String) (points : List (Binary64 × String))
  | pointsBetween (key : String) (first : UInt64) (last : Binary64)
  | expireAt (key : String) (second : UInt64)
  | flush
  /-- Deletes a key if it holds the token. -/
  | release (key token : String)
deriving DecidableEq, Repr

/-- What a server answers. -/
inductive Reply
  | ok
  | nothing
  | text (s : String)
  | integer (n : Int)
  | scored (members : List (String × Binary64))
deriving DecidableEq, Repr

namespace Command

/-- The name of a command on the wire. -/
def name : Command → String
  | .ping => "PING"
  | .auth _ => "AUTH"
  | .select _ => "SELECT"
  | .get _ => "GET"
  | .set _ _ => "SET"
  | .setNew _ _ _ => "SET"
  | .increment _ => "INCR"
  | .delete _ => "DEL"
  | .addMember _ _ => "SADD"
  | .removeMember _ _ => "SREM"
  | .addPoints _ _ => "ZADD"
  | .pointsBetween _ _ _ => "ZRANGEBYSCORE"
  | .expireAt _ _ => "EXPIREAT"
  | .flush => "FLUSHDB"
  | .release _ _ => "EVALSHA"

/-- The arguments of a command on the wire. -/
def arguments : Command → List String
  | .ping => []
  | .auth password => [password]
  | .select database => [toString database]
  | .get key => [key]
  | .set key text => [key, text]
  | .setNew key token leaseMs => [key, token, "NX", "PX", toString leaseMs.toNat]
  | .increment key => [key]
  | .delete keys => keys
  | .addMember key member => [key, member]
  | .removeMember key member => [key, member]
  | .addPoints key points => key :: points.flatMap fun (score, member) => [score.toText, member]
  | .pointsBetween key first last => [key, toString first.toNat, last.toText, "WITHSCORES"]
  | .expireAt key second => [key, toString second.toNat]
  | .flush => []
  | .release key token => [key, token]

end Command

/-! ## Execution -/

def wrongType : String := "WRONGTYPE Operation against a key holding the wrong kind of value"

def notInteger : String := "ERR value is not an integer or out of range"

namespace Keyspace

/-- The string at a key. -/
def string? (ks : Keyspace) (key : String) : Except String (Option String) :=
  match ks.get? key with
  | none => .ok none
  | some ⟨.string text, _, _⟩ => .ok (some text)
  | some _ => .error wrongType

/-- The set at a key; a key that holds nothing counts as the empty set. -/
def set? (ks : Keyspace) (key : String) : Except String (List String) :=
  match ks.get? key with
  | none => .ok []
  | some ⟨.set members, _, _⟩ => .ok members
  | some _ => .error wrongType

/-- The sorted set at a key; a key that holds nothing counts as the empty one. -/
def sortedSet? (ks : Keyspace) (key : String) : Except String (Table String Binary64) :=
  match ks.get? key with
  | none => .ok .empty
  | some ⟨.sortedSet scores, _, _⟩ => .ok scores
  | some _ => .error wrongType

/-- Changes the value at a key and keeps what was said about its end. -/
def setValue (ks : Keyspace) (key : String) (value : Value) : Keyspace :=
  match ks.get? key with
  | none => ks.insert key { value }
  | some entry => ks.insert key { entry with value }

end Keyspace

/-- The members of a sorted set with a score between two bounds, by score and then by member. -/
def membersBetween (scores : Table String Binary64) (low high : Binary64) :
    List (String × Binary64) :=
  (scores.entries.filter fun (_, score) => low.totalLe score && score.totalLe high)
  |>.mergeSort fun a b =>
    decide (a.2.totalRank < b.2.totalRank)
      || (decide (a.2.totalRank = b.2.totalRank) && decide (¬ b.1 < a.1))

/-- Puts members with their scores into a sorted set and counts those that are new. -/
def addScores (scores : Table String Binary64) (points : List (Binary64 × String)) :
    Table String Binary64 × Nat :=
  points.foldl (fun (scores, added) (score, member) =>
    (scores.insert member score, if scores.contains member then added else added + 1)) (scores, 0)

/-- What a command answers, and the keys after it; `required` is the server's password. -/
def exec (required : String) (command : Command) (ks : Keyspace) :
    Except String Reply × Keyspace :=
  match command with
  | .ping => (.ok (.text "PONG"), ks)
  | .auth password =>
    if required ≠ "" ∧ password = required then (.ok .ok, ks)
    else (.error "ERR invalid password", ks)
  | .select database =>
    if 0 ≤ database ∧ database < 16 then (.ok .ok, ks)
    else (.error "ERR DB index is out of range", ks)
  | .get key =>
    match ks.string? key with
    | .error e => (.error e, ks)
    | .ok none => (.ok .nothing, ks)
    | .ok (some text) => (.ok (.text text), ks)
  | .set key text => (.ok .ok, ks.insert key { value := .string text })
  | .setNew key token leaseMs =>
    if ks.contains key then (.ok .nothing, ks)
    else (.ok .ok, ks.insert key { value := .string token, leaseMs := some leaseMs })
  | .increment key =>
    match ks.string? key with
    | .error e => (.error e, ks)
    | .ok text? =>
      match integer? 10 maxInt64 (text?.getD "0").toList with
      | none => (.error notInteger, ks)
      | some n =>
        if n < maxInt64 then
          (.ok (.integer (n + 1)), ks.setValue key (.string (toString (n + 1))))
        else (.error "ERR increment or decrement would overflow", ks)
  | .delete keys =>
    (.ok (.integer (keys.eraseDups.countP ks.contains)), keys.foldl Table.erase ks)
  | .addMember key member =>
    match ks.set? key with
    | .error e => (.error e, ks)
    | .ok members =>
      if members.contains member then (.ok (.integer 0), ks)
      else (.ok (.integer 1), ks.setValue key (.set (members ++ [member])))
  | .removeMember key member =>
    match ks.set? key with
    | .error e => (.error e, ks)
    | .ok members =>
      if members.contains member then
        let left := members.filter (· ≠ member)
        (.ok (.integer 1),
          if left.isEmpty then ks.erase key else ks.setValue key (.set left))
      else (.ok (.integer 0), ks)
  | .addPoints key points =>
    match ks.sortedSet? key with
    | .error e => (.error e, ks)
    | .ok scores =>
      let (scores, added) := addScores scores points
      (.ok (.integer added), ks.setValue key (.sortedSet scores))
  | .pointsBetween key first last =>
    match ks.sortedSet? key with
    | .error e => (.error e, ks)
    | .ok scores => (.ok (.scored (membersBetween scores (Binary64.ofUInt64 first) last)), ks)
  | .expireAt key second =>
    match ks.get? key with
    | none => (.ok (.integer 0), ks)
    | some entry => (.ok (.integer 1), ks.insert key { entry with expireAt := some second })
  | .flush => (.ok .ok, .empty)
  | .release key token =>
    match ks.string? key with
    | .error e => (.error e, ks)
    | .ok text? =>
      if text? = some token then (.ok (.integer 1), ks.erase key) else (.ok (.integer 0), ks)

end Server

end SeriesStorage
