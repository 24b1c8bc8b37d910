import TableAccess.Json.Reader

/-!
The settings of one datasource.

Settings are read from JSON, either an object whose members may be left out or a list in the order
of the fields; what is left out keeps its default. An object may have members of other names, which
are passed over, but must not name a setting twice. Zero means the default for every number.
-/

namespace TableAccess

/-- How to reach a database and how many connections to keep. Times of connections are in seconds.
-/
structure Settings where
  url : String := ""
  size : Nat := 16
  life : Nat := 0
  idleConnections : Nat := 0
  idleTime : Nat := 0
  logSql : Bool := false
  acquireTimeoutMs : Nat := 5000
  deriving DecidableEq

namespace Settings

/-- The bound on acquiring a connection and on beginning its transaction unless another is set, in
milliseconds. -/
def defaultTimeout : Nat := 5000

/-- The bound on acquiring a connection, in milliseconds. -/
def acquireTimeout (s : Settings) : Nat :=
  if s.acquireTimeoutMs = 0 then defaultTimeout else s.acquireTimeoutMs

/-- A number unless it is zero. -/
def positive? (n : Nat) : Option Nat := if n = 0 then none else some n

/-- How long a connection lives. -/
def maxLifetime (s : Settings) : Option Nat := positive? s.life

/-- How long a connection may be idle. -/
def maxIdleTime (s : Settings) : Option Nat := positive? s.idleTime

/-- How many idle connections are kept. -/
def maxIdle (s : Settings) : Option Nat := positive? s.idleConnections

/-- How many connections a pool may hold. -/
def capacity (s : Settings) : Nat := max s.size 1

/-- The names of the settings. -/
inductive Key where
  | url | size | life | idleConnections | idleTime | logSql | acquireTimeoutMs
  deriving DecidableEq

/-- The settings in the order of a list. -/
def Key.all : List Key :=
  [.url, .size, .life, .idleConnections, .idleTime, .logSql, .acquireTimeoutMs]

def Key.ofName? : String → Option Key
  | "url" => some .url
  | "size" => some .size
  | "life" => some .life
  | "idle_cons" => some .idleConnections
  | "idle_time" => some .idleTime
  | "log_sql" => some .logSql
  | "acquire_timeout_ms" => some .acquireTimeoutMs
  | _ => none

/-- A text in a JSON tree. -/
def readText? : Json.Source → Option String
  | .quoted units => Json.text? units
  | _ => none

/-- A truth value in a JSON tree. -/
def readBool? : Json.Source → Option Bool
  | .bool b => some b
  | _ => none

/-- A number of 64 unsigned bits in a JSON tree. -/
def readNat? : Json.Source → Option Nat
  | .numeral n => n.whole?.bind fun v => if 0 ≤ v then some v.toNat else none
  | _ => none

/-- The settings with one of them read. -/
def put (s : Settings) (value : Json.Source) : Key → Option Settings
  | .url => (readText? value).map fun v => { s with url := v }
  | .size => (readNat? value).map fun v => { s with size := v }
  | .life => (readNat? value).map fun v => { s with life := v }
  | .idleConnections => (readNat? value).map fun v => { s with idleConnections := v }
  | .idleTime => (readNat? value).map fun v => { s with idleTime := v }
  | .logSql => (readBool? value).map fun v => { s with logSql := v }
  | .acquireTimeoutMs => (readNat? value).map fun v => { s with acquireTimeoutMs := v }

/-- The settings with the members of an object read, those in `seen` having been read before. -/
def putMembers (s : Settings) (seen : List Key) : List (List Nat × Json.Source) → Option Settings
  | [] => some s
  | (name, value) :: rest => do
    let name ← Json.text? name
    match Key.ofName? name with
    | none => putMembers s seen rest
    | some key =>
      if seen.contains key then none
      else
        let s ← s.put value key
        putMembers s (key :: seen) rest

/-- The settings with the items of a list read in order. -/
def putItems (s : Settings) : List Key → List Json.Source → Option Settings
  | _, [] => some s
  | [], _ :: _ => none
  | key :: keys, item :: rest => do
    let s ← s.put item key
    putItems s keys rest

/-- The settings that a JSON text gives. -/
def ofText? (text : String) : Option Settings :=
  match Json.Source.ofText? text.toList with
  | some (.object members) => putMembers {} [] members
  | some (.array items) => putItems {} Key.all items
  | _ => none

end Settings

end TableAccess
