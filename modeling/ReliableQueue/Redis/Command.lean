import ReliableQueue.Binary64.Decimal
import ReliableQueue.Store.Batch

/-!
Commands to a Redis server and the words that they are sent as.
-/

namespace ReliableQueue.Redis

open Text (Bytes)

/-- A command on one key. -/
inductive Command where
  | rpush (key : String) (values : List String)
  | lpush (key value : String)
  | llen (key : String)
  /-- The time to wait is in seconds. -/
  | blpop (key : String) (timeout : Binary64)
  | hset (key field : String) (value : Bytes)
  | hget (key field : String)
  | hdel (key field : String)
  | zadd (key : String) (score : Binary64) (member : String)
  | zrem (key member : String)
  | zcard (key : String)
  /-- Everything up to a bound. -/
  | zrangebyscore (key : String) (max : Binary64)
deriving DecidableEq

/-- A command, or one of those that surround a transaction. -/
inductive Request where
  | command (c : Command)
  | multi
  | exec
  | discard
deriving DecidableEq

inductive Word where
  | text (s : String)
  | bytes (b : Bytes)
deriving DecidableEq

namespace Command

def name : Command → String
  | rpush .. => "RPUSH"
  | lpush .. => "LPUSH"
  | llen _ => "LLEN"
  | blpop .. => "BLPOP"
  | hset .. => "HSET"
  | hget .. => "HGET"
  | hdel .. => "HDEL"
  | zadd .. => "ZADD"
  | zrem .. => "ZREM"
  | zcard _ => "ZCARD"
  | zrangebyscore .. => "ZRANGEBYSCORE"

def key : Command → String
  | rpush k _ | lpush k _ | llen k | blpop k _ | hset k _ _ | hget k _ | hdel k _ | zadd k _ _
  | zrem k _ | zcard k | zrangebyscore k _ => k

/-- A bound of a range; positive infinity has a sign there. -/
def bound (x : Binary64) : String :=
  if x.isInfinite && !x.negative then "+inf" else x.text

def arguments : Command → List Word
  | rpush _ values => values.map .text
  | lpush _ value => [.text value]
  | llen _ | zcard _ => []
  | blpop _ timeout => [.text timeout.text]
  | hset _ field value => [.text field, .bytes value]
  | hget _ field | hdel _ field => [.text field]
  | zadd _ score member => [.text score.text, .text member]
  | zrem _ member => [.text member]
  | zrangebyscore _ max => [.text "-inf", .text (bound max)]

/-- The command that writes what a store's command writes. -/
def ofStore : Store.Command → Command
  | .rpush key values => rpush key values
  | .lpush key value => lpush key value
  | .hset key field value => hset key field value
  | .hdel key field => hdel key field
  | .zrem key member => zrem key member

end Command

namespace Request

def name : Request → String
  | command c => c.name
  | multi => "MULTI"
  | exec => "EXEC"
  | discard => "DISCARD"

def words : Request → List Word
  | command c => .text c.name :: .text c.key :: c.arguments
  | r => [.text r.name]

end Request

end ReliableQueue.Redis
