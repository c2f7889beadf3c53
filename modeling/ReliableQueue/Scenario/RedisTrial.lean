import ReliableQueue.Redis.Client
import ReliableQueue.Scenario.StoreTrial

/-!
Calls on a store that is a Redis server, with what each sent. What the client's library
makes of a pop that has waited in vain is `inVain`.
-/

namespace ReliableQueue.Scenario

open Redis (Client)

inductive RedisAct where
  | call (c : StoreCall)
  /-- The next command of this name is answered with an error. -/
  | fail (name text : String)

namespace RedisTrial

variable (inVain : Except Redis.Error (Option String))

/-- A call of a store. What only looks into a store in memory does nothing here. -/
def call (c : Client) : StoreCall → StoreResult × Client
  | .exec batch => let (r, c) := c.exec batch; (r.map fun _ => .done, c)
  | .blpop key timeout => let (r, c) := c.blpop inVain key timeout; (r.map .value, c)
  | .lpush key value => let (r, c) := c.lpush key value; (r.map fun _ => .done, c)
  | .llen key => let (r, c) := c.llen key; (r.map .number, c)
  | .hget key field => let (r, c) := c.hget key field; (r.map .bytes, c)
  | .zadd key member score => let (r, c) := c.zadd key member score; (r.map fun _ => .done, c)
  | .zrangebyscore key max => let (r, c) := c.zrangebyscore key max; (r.map .values, c)
  | .zcard key => let (r, c) := c.zcard key; (r.map .number, c)
  | .list _ | .score .. | .hashLength _ => (.ok .done, c)

/-- What one act led to. -/
structure Step where
  result : StoreResult
  /-- Earliest first. -/
  sent : List (Redis.Connection × Redis.Request)
  contents : Store.Contents

def act (c : Client) (a : RedisAct) : Step × Client :=
  let fresh : Client := { c with sent := [] }
  let (result, c) : StoreResult × Client := match a with
    | .call request => call inVain fresh request
    | .fail name text => (.ok .done, { fresh with server := fresh.server.failNext name text })
  ({ result, sent := c.sent.reverse, contents := c.server.keys.contents }, c)

def play (c : Client) : List RedisAct → List Step
  | [] => []
  | a :: rest =>
      let (step, c) := act inVain c a
      step :: play c rest

end RedisTrial

end ReliableQueue.Scenario
