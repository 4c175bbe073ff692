/-
# Databases of one client do not meet

A client works on several databases at once. Where no name of a connection or cursor is used for two
of them (`Request.Respects`), the requests for one database are answered as if the others had not
been made (`Client.answerAll_isolated`). Only the clock is shared: a statement that reads it learns
how often it was read for other databases.

| request | of another database | of this database |
| --- | --- | --- |
| connect | leaves it | finds it made by the same name, or makes it |
| exec, query, query a row | leaves it | runs on it, with the same answer |
| move or read a cursor | leaves its cursors | finds the same rows |

A database has the options of the name that has made it: the first that names it and is not refused.
-/

import MiniSql.Client
import MiniSql.Proofs.Session.Step
import MiniSql.Proofs.Steady

namespace MiniSql

/-- Which database the name of a connection or of a cursor is for. -/
structure Owners where
  connection : String → String
  cursor : String → String

namespace Request

/-- The database that a request is for. -/
def owner (owners : Owners) : Request → String
  | connect connection _ => owners.connection connection
  | exec connection _ _ => owners.connection connection
  | query connection _ _ _ => owners.connection connection
  | queryRow connection _ _ _ => owners.connection connection
  | next cursor => owners.cursor cursor
  | columns cursor => owners.cursor cursor
  | get cursor _ _ => owners.cursor cursor
  | scan cursor _ => owners.cursor cursor

/-- The database that a data source name leads to, unless it is refused. -/
def sourceName? (source : String) : Option String := (Options.ofSource source).toOption.map (·.1)

/-- The request uses names for the databases that own them: a connection that is opened leads to its
owner, and the rows of a query go to a cursor of the same owner. -/
def Respects (owners : Owners) : Request → Prop
  | connect connection source => ∀ name ∈ sourceName? source, owners.connection connection = name
  | query connection cursor _ _ => owners.cursor cursor = owners.connection connection
  | _ => True

instance (owners : Owners) : DecidablePred (Respects owners)
  | connect connection source =>
    inferInstanceAs (Decidable (∀ name ∈ sourceName? source, owners.connection connection = name))
  | query connection cursor _ _ =>
    inferInstanceAs (Decidable (owners.cursor cursor = owners.connection connection))
  | exec _ _ _ => .isTrue trivial
  | queryRow _ _ _ _ => .isTrue trivial
  | next _ => .isTrue trivial
  | columns _ => .isTrue trivial
  | get _ _ _ => .isTrue trivial
  | scan _ _ => .isTrue trivial

/-- A connection that respects its owner leads to the database of that name. -/
theorem Respects.connect {owners : Owners} {connection source name : String} {options : Options}
    (h : (connect connection source).Respects owners)
    (hsource : Options.ofSource source = .ok (name, options)) :
    owners.connection connection = name :=
  h name (by rw [sourceName?, hsource]; rfl)

/-- The options that a request gives for a database, if it makes it. -/
def opens? (database : String) : Request → Option Options
  | connect _ source =>
    match Options.ofSource source with
    | .ok (name, options) => if name = database then some options else none
    | .error _ => none
  | _ => none

end Request

namespace Client

variable {owners : Owners} {database : String} {c c' : Client} {request : Request}
  {connection sql : String} {arguments : List Value}

/-- The replies to the requests for a database. -/
def repliesTo (owners : Owners) (database : String) (requests : List Request)
    (replies : List Reply) : List Reply :=
  ((requests.zip replies).filter fun e => e.1.owner owners = database).map (·.2)

/-- Connections lead to their owners. -/
def Led (owners : Owners) (c : Client) : Prop :=
  ∀ connection name, c.connections.get? connection = some name → owners.connection connection = name

/-- Two clients have the same of a database: itself, its connections and its cursors. -/
structure Agree (owners : Owners) (database : String) (c c' : Client) : Prop where
  databases : c.databases.get? database = c'.databases.get? database
  connections : ∀ name, owners.connection name = database →
    c.connections.get? name = c'.connections.get? name
  cursors : ∀ name, owners.cursor name = database → c.cursors.get? name = c'.cursors.get? name

/-! ## Statements -/

/-- A statement runs on the database that its connection leads to. -/
theorem execute_of_led {d : Database} (hconnection : c.connections.get? connection = some database)
    (hdatabase : c.databases.get? database = some d) :
    c.execute connection sql arguments =
      ({ c with
          databases := c.databases.insert database ((d.execute sql arguments).run c.clock).1.2,
          clock := ((d.execute sql arguments).run c.clock).2 },
        some ((d.execute sql arguments).run c.clock).1.1) := by
  rw [execute, hconnection]
  dsimp only
  rw [hdatabase]
  rfl

/-- A connection that leads to no database has nothing to execute. -/
theorem execute_of_unled (h : ∀ name d, c.connections.get? connection = some name →
    c.databases.get? name ≠ some d) : c.execute connection sql arguments = (c, none) := by
  unfold execute
  split
  · rfl
  · rename_i name hname
    split
    · rfl
    · rename_i d hd
      exact absurd hd (h name d hname)

/-- It is not run if its connection leads nowhere. -/
theorem execute_cases (c : Client) (connection sql : String) (arguments : List Value) :
    c.execute connection sql arguments = (c, none) ∨
      ∃ name d, c.connections.get? connection = some name ∧ c.databases.get? name = some d := by
  by_cases h : ∃ name d, c.connections.get? connection = some name ∧ c.databases.get? name = some d
  · exact .inr h
  · exact .inl (execute_of_unled fun name d hname hd => h ⟨name, d, hname, hd⟩)

/-- Executing a statement leaves the connections. -/
theorem connections_execute :
    (c.execute connection sql arguments).1.connections = c.connections := by
  rcases execute_cases c connection sql arguments with h | ⟨name, d, hname, hd⟩
  · rw [h]
  · rw [execute_of_led hname hd]

/-- Executing a statement leaves the cursors. -/
theorem cursors_execute : (c.execute connection sql arguments).1.cursors = c.cursors := by
  rcases execute_cases c connection sql arguments with h | ⟨name, d, hname, hd⟩
  · rw [h]
  · rw [execute_of_led hname hd]

/-- A statement does not set the clock back. -/
theorem clock_execute (c : Client) (connection sql : String) (arguments : List Value) :
    c.clock.Passes (c.execute connection sql arguments).1.clock := by
  rcases execute_cases c connection sql arguments with h | ⟨name, d, hname, hd⟩
  · exact .inl (by rw [h])
  · rw [execute_of_led hname hd]
    exact (d.execute_steady sql arguments c.clock).1

/-- A statement leaves the databases that its connection does not lead to. -/
theorem databases_execute_of_ne (hled : c.Led owners)
    (hne : owners.connection connection ≠ database) :
    (c.execute connection sql arguments).1.databases.get? database = c.databases.get? database := by
  rcases execute_cases c connection sql arguments with h | ⟨name, d, hname, hd⟩
  · rw [h]
  · have hother : name ≠ database := hled connection name hname ▸ hne
    rw [execute_of_led hname hd]
    show (c.databases.insert name _).get? database = _
    rw [SortedMap.get?_insert, if_neg hother]

/-- **A statement of this database** has the same answer for both clients, unless it reads the
clock. -/
theorem Agree.execute_own (h : c.Agree owners database c') (hled : c.Led owners)
    (howner : owners.connection connection = database)
    (hclock : (c.execute connection sql arguments).1.clock = c.clock) :
    (c.execute connection sql arguments).2 = (c'.execute connection sql arguments).2 ∧
      (c.execute connection sql arguments).1.Agree owners database
        (c'.execute connection sql arguments).1 := by
  have hconnection := h.connections connection howner
  rcases execute_cases c connection sql arguments with hnone | ⟨name, d, hname, hd⟩
  · rw [hnone, execute_of_unled fun name d hname hd => ?_]
    · exact ⟨rfl, h⟩
    -- What the second client has here the first one has too.
    rw [← hconnection] at hname
    obtain rfl : name = database := (hled connection name hname).symm.trans howner
    rw [← h.databases] at hd
    rw [execute_of_led hname hd] at hnone
    cases congrArg Prod.snd hnone
  · obtain rfl : name = database := (hled connection name hname).symm.trans howner
    have hname' := hname
    have hd' := hd
    rw [hconnection] at hname'
    rw [h.databases] at hd'
    rw [execute_of_led hname hd] at hclock
    have hsame := (d.execute_steady sql arguments c.clock).2 hclock c'.clock
    rw [execute_of_led hname hd, execute_of_led hname' hd', hsame]
    refine ⟨rfl, ?_, h.connections, h.cursors⟩
    show (c.databases.insert name _).get? name = (c'.databases.insert name _).get? name
    rw [SortedMap.get?_insert, SortedMap.get?_insert, if_pos rfl, if_pos rfl]

/-- A statement of another database changes nothing that the clients agree on. -/
theorem Agree.execute_other (h : c.Agree owners database c') (hled : c.Led owners)
    (hne : owners.connection connection ≠ database) :
    (c.execute connection sql arguments).1.Agree owners database c' where
  databases := (databases_execute_of_ne hled hne).trans h.databases
  connections name hname := by rw [connections_execute, h.connections name hname]
  cursors name hname := by rw [cursors_execute, h.cursors name hname]

/-! ## Rows of a query -/

/-- What a query does with an answer: the rows go to a cursor. -/
def settle (cursor : String) : Client × Option (Except Error Answer) → Client × Reply
  | (c, none) => (c, .noConnection)
  | (c, some (.error e)) => (c, .refused e)
  | (c, some (.ok answer)) =>
    ({ c with cursors := c.cursors.insert cursor (Cursor.ofAnswer answer) },
      .columns (Cursor.ofAnswer answer).columns)

/-- The client without a cursor. -/
def forget (c : Client) (cursor : String) : Client := { c with cursors := c.cursors.erase cursor }

/-- A query executes its text with the cursor forgotten, and settles the answer on the cursor. -/
theorem query_eq (c : Client) (connection cursor sql : String) (arguments : List Value) :
    c.query connection cursor sql arguments =
      settle cursor ((c.forget cursor).execute connection sql arguments) := by
  rw [query]
  show _ = settle cursor ({ c with cursors := c.cursors.erase cursor }.execute _ _ _)
  split <;> rename_i h <;> rw [h] <;> rfl

section settle

variable {cursor : String} {answer : Option (Except Error Answer)}

/-- Settling an answer leaves the connections. -/
theorem connections_settle : (settle cursor (c, answer)).1.connections = c.connections := by
  rcases answer with _ | _ | _ <;> rfl

/-- Settling an answer leaves the databases. -/
theorem databases_settle : (settle cursor (c, answer)).1.databases = c.databases := by
  rcases answer with _ | _ | _ <;> rfl

/-- Settling an answer leaves the clock. -/
theorem clock_settle : (settle cursor (c, answer)).1.clock = c.clock := by
  rcases answer with _ | _ | _ <;> rfl

/-- Other cursors stay. -/
theorem cursors_settle_of_ne {name : String} (hne : cursor ≠ name) :
    (settle cursor (c, answer)).1.cursors.get? name = c.cursors.get? name := by
  rcases answer with _ | _ | answer
  · rfl
  · rfl
  · show (c.cursors.insert cursor _).get? name = _
    rw [SortedMap.get?_insert, if_neg hne]

/-- Clients that agree on a database do so when both forget a cursor. -/
theorem Agree.forget_own (h : c.Agree owners database c') (cursor : String) :
    (c.forget cursor).Agree owners database (c'.forget cursor) where
  databases := h.databases
  connections := h.connections
  cursors name hname := by
    show (c.cursors.erase cursor).get? name = (c'.cursors.erase cursor).get? name
    rw [SortedMap.get?_erase, SortedMap.get?_erase, h.cursors name hname]

/-- Clients that agree reply alike when both settle the same answer, and go on agreeing. -/
theorem Agree.settle_own (h : c.Agree owners database c') :
    (settle cursor (c, answer)).2 = (settle cursor (c', answer)).2 ∧
      (settle cursor (c, answer)).1.Agree owners database (settle cursor (c', answer)).1 := by
  rcases answer with _ | _ | answer
  · exact ⟨rfl, h⟩
  · exact ⟨rfl, h⟩
  · refine ⟨rfl, h.databases, h.connections, fun name hname => ?_⟩
    show (c.cursors.insert cursor _).get? name = (c'.cursors.insert cursor _).get? name
    rw [SortedMap.get?_insert, SortedMap.get?_insert, h.cursors name hname]

/-- Clients agree when one of them forgets a cursor of another database. -/
theorem Agree.forget_other (h : c.Agree owners database c')
    (hne : owners.cursor cursor ≠ database) :
    (c.forget cursor).Agree owners database c' where
  databases := h.databases
  connections := h.connections
  cursors name hname := by
    have hother : cursor ≠ name := fun heq => hne (heq ▸ hname)
    show (c.cursors.erase cursor).get? name = _
    rw [SortedMap.get?_erase, if_neg hother, h.cursors name hname]

/-- Clients agree when one of them settles an answer on a cursor of another database. -/
theorem Agree.settle_other (h : c.Agree owners database c')
    (hne : owners.cursor cursor ≠ database) :
    (settle cursor (c, answer)).1.Agree owners database c' where
  databases := by rw [databases_settle, h.databases]
  connections name hname := by rw [connections_settle, h.connections name hname]
  cursors name hname := by
    have hother : cursor ≠ name := fun heq => hne (heq ▸ hname)
    rw [cursors_settle_of_ne hother, h.cursors name hname]

end settle

/-! ## Cursors -/

section cursors

variable {cursor : String}

/-- Clients that agree reply alike about a cursor of the database, and stay as they are. -/
theorem Agree.inspect_own (h : c.Agree owners database c')
    (howner : owners.cursor cursor = database)
    (reply : Cursor → Reply) : (c.inspect cursor reply).2 = (c'.inspect cursor reply).2 ∧
      (c.inspect cursor reply).1 = c ∧ (c'.inspect cursor reply).1 = c' := by
  unfold inspect
  rw [← h.cursors cursor howner]
  cases c.cursors.get? cursor <;> exact ⟨rfl, rfl, rfl⟩

/-- To inspect a cursor changes nothing. -/
theorem fst_inspect (c : Client) (cursor : String) (reply : Cursor → Reply) :
    (c.inspect cursor reply).1 = c := by
  unfold inspect
  cases c.cursors.get? cursor <;> rfl

/-- Clients that agree reply alike when both move a cursor of the database, and go on agreeing. -/
theorem Agree.move_own (h : c.Agree owners database c') (howner : owners.cursor cursor = database) :
    (c.move cursor).2 = (c'.move cursor).2 ∧
      (c.move cursor).1.Agree owners database (c'.move cursor).1 := by
  unfold move
  rw [← h.cursors cursor howner]
  cases c.cursors.get? cursor with
  | none => exact ⟨rfl, h⟩
  | some rows =>
    refine ⟨rfl, h.databases, h.connections, fun name hname => ?_⟩
    show (c.cursors.insert cursor _).get? name = (c'.cursors.insert cursor _).get? name
    rw [SortedMap.get?_insert, SortedMap.get?_insert, h.cursors name hname]

/-- Clients agree when one of them moves a cursor of another database. -/
theorem Agree.move_other (h : c.Agree owners database c') (hne : owners.cursor cursor ≠ database) :
    (c.move cursor).1.Agree owners database c' := by
  unfold move
  cases c.cursors.get? cursor with
  | none => exact h
  | some rows =>
    refine ⟨h.databases, h.connections, fun name hname => ?_⟩
    have hother : cursor ≠ name := fun heq => hne (heq ▸ hname)
    show (c.cursors.insert cursor _).get? name = _
    rw [SortedMap.get?_insert, if_neg hother, h.cursors name hname]

/-- Moving a cursor leaves the connections. -/
theorem connections_move (c : Client) (cursor : String) :
    (c.move cursor).1.connections = c.connections := by
  unfold move
  cases c.cursors.get? cursor <;> rfl

/-- Moving a cursor leaves the clock. -/
theorem clock_move (c : Client) (cursor : String) : (c.move cursor).1.clock = c.clock := by
  unfold move
  cases c.cursors.get? cursor <;> rfl

end cursors

/-! ## Connections -/

section connect

variable {source : String}

/-- The databases and connections after a connection is opened. -/
theorem connect_of_ok {name : String} {options : Options}
    (h : Options.ofSource source = .ok (name, options)) :
    c.connect connection source =
      ({ c with
          databases := if c.databases.contains name then c.databases
            else c.databases.insert name (.new options),
          connections := c.connections.insert connection name }, .opened) := by
  rw [connect, h]

/-- A data source name that is refused opens no connection. -/
theorem connect_of_error {e : Error} (h : Options.ofSource source = .error e) :
    c.connect connection source = (c, .refused e) := by
  rw [connect, h]

end connect

/-! ## Requests -/

/-- Whether the connections lead to their owners depends on the connections only. -/
theorem Led.of_connections (hled : c.Led owners) (h : c'.connections = c.connections) :
    c'.Led owners := fun connection name hname => hled connection name (h ▸ hname)

/-- Connections still lead to their owners after a request. -/
theorem Led.answer (hled : c.Led owners) (hrequest : request.Respects owners) :
    (c.answer request).1.Led owners := by
  cases request with
  | connect connection source =>
    show (c.connect connection source).1.Led owners
    rcases hsource : Options.ofSource source with e | ⟨name, options⟩
    · rw [connect_of_error hsource]
      exact hled
    · rw [connect_of_ok hsource]
      intro other name' hname'
      change (c.connections.insert connection name).get? other = some name' at hname'
      rw [SortedMap.get?_insert] at hname'
      split at hname'
      · rename_i heq
        subst heq
        cases hname'
        exact hrequest.connect hsource
      · exact hled other name' hname'
  | exec connection sql arguments => exact hled.of_connections connections_execute
  | query connection cursor sql arguments =>
    refine hled.of_connections ?_
    show (c.query connection cursor sql arguments).1.connections = _
    rw [query_eq]
    exact connections_settle.trans connections_execute
  | queryRow connection sql arguments destinations =>
    exact hled.of_connections connections_execute
  | next cursor => exact hled.of_connections (connections_move c cursor)
  | columns cursor => exact (fst_inspect c cursor _).symm ▸ hled
  | get cursor index destination => exact (fst_inspect c cursor _).symm ▸ hled
  | scan cursor destinations => exact (fst_inspect c cursor _).symm ▸ hled

/-- No request sets the clock back. -/
theorem clock_answer (c : Client) (request : Request) :
    c.clock.Passes (c.answer request).1.clock := by
  cases request with
  | connect connection source =>
    show c.clock.Passes (c.connect connection source).1.clock
    rcases hsource : Options.ofSource source with e | ⟨name, options⟩
    · exact .inl (by rw [connect_of_error hsource])
    · exact .inl (by rw [connect_of_ok hsource])
  | exec connection sql arguments => exact clock_execute c connection sql arguments
  | query connection cursor sql arguments =>
    show c.clock.Passes (c.query connection cursor sql arguments).1.clock
    rw [query_eq, clock_settle]
    exact clock_execute (c.forget cursor) connection sql arguments
  | queryRow connection sql arguments destinations => exact clock_execute c connection sql arguments
  | next cursor => exact .inl (clock_move c cursor)
  | columns cursor => exact (fst_inspect c cursor _).symm ▸ .refl _
  | get cursor index destination => exact (fst_inspect c cursor _).symm ▸ .refl _
  | scan cursor destinations => exact (fst_inspect c cursor _).symm ▸ .refl _

/-- **A request for this database** has the same reply from both clients, unless it reads the
clock. -/
theorem Agree.answer_own (h : c.Agree owners database c') (hled : c.Led owners)
    (hrequest : request.Respects owners) (howner : request.owner owners = database)
    (hclock : (c.answer request).1.clock = c.clock) :
    (c.answer request).2 = (c'.answer request).2 ∧
      (c.answer request).1.Agree owners database (c'.answer request).1 := by
  have hinspect {cursor : String} (hcursor : owners.cursor cursor = database)
      (reply : Cursor → Reply) : (c.inspect cursor reply).2 = (c'.inspect cursor reply).2 ∧
        (c.inspect cursor reply).1.Agree owners database (c'.inspect cursor reply).1 := by
    obtain ⟨hreply, hc, hc'⟩ := h.inspect_own hcursor reply
    exact ⟨hreply, by rwa [hc, hc']⟩
  cases request with
  | connect connection source =>
    show (c.connect connection source).2 = (c'.connect connection source).2 ∧
      (c.connect connection source).1.Agree owners database (c'.connect connection source).1
    rcases hsource : Options.ofSource source with e | ⟨name, options⟩
    · rw [connect_of_error hsource, connect_of_error hsource]
      exact ⟨rfl, h⟩
    · obtain rfl : name = database := (hrequest.connect hsource).symm.trans howner
      rw [connect_of_ok hsource, connect_of_ok hsource]
      refine ⟨rfl, ?_, fun other hother => ?_, h.cursors⟩
      · dsimp only
        rw [SortedMap.contains, SortedMap.contains, ← h.databases]
        split
        · exact h.databases
        · rw [SortedMap.get?_insert, SortedMap.get?_insert, if_pos rfl, if_pos rfl]
      · show (c.connections.insert connection name).get? other =
          (c'.connections.insert connection name).get? other
        rw [SortedMap.get?_insert, SortedMap.get?_insert, h.connections other hother]
  | exec connection sql arguments =>
    obtain ⟨hanswer, hagree⟩ := h.execute_own hled howner hclock
    exact ⟨congrArg execReply hanswer, hagree⟩
  | query connection cursor sql arguments =>
    -- The cursor is forgotten first, which takes no time.
    have hstill : ((c.forget cursor).execute connection sql arguments).1.clock = c.clock := by
      have hquery : (c.query connection cursor sql arguments).1.clock = c.clock := hclock
      rwa [query_eq, clock_settle] at hquery
    have hled' : (c.forget cursor).Led owners := hled
    obtain ⟨hanswer, hagree⟩ := (h.forget_own cursor).execute_own hled' howner hstill
    show (c.query connection cursor sql arguments).2 =
        (c'.query connection cursor sql arguments).2 ∧
      (c.query connection cursor sql arguments).1.Agree owners database
        (c'.query connection cursor sql arguments).1
    rw [query_eq, query_eq, ← Prod.eta ((c'.forget cursor).execute connection sql arguments),
      ← hanswer]
    exact hagree.settle_own
  | queryRow connection sql arguments destinations =>
    obtain ⟨hanswer, hagree⟩ := h.execute_own hled howner hclock
    exact ⟨congrArg (firstRow destinations) hanswer, hagree⟩
  | next cursor => exact h.move_own howner
  | columns cursor => exact hinspect howner _
  | get cursor index destination => exact hinspect howner _
  | scan cursor destinations => exact hinspect howner _

/-- **A request for another database** changes nothing that the clients agree on. -/
theorem Agree.answer_other (h : c.Agree owners database c') (hled : c.Led owners)
    (hrequest : request.Respects owners) (hne : request.owner owners ≠ database) :
    (c.answer request).1.Agree owners database c' := by
  cases request with
  | connect connection source =>
    show (c.connect connection source).1.Agree owners database c'
    rcases hsource : Options.ofSource source with e | ⟨name, options⟩
    · rw [connect_of_error hsource]
      exact h
    · have hother : name ≠ database := hrequest.connect hsource ▸ hne
      rw [connect_of_ok hsource]
      refine ⟨?_, fun other howner => ?_, h.cursors⟩
      · dsimp only
        split
        · exact h.databases
        · rw [SortedMap.get?_insert, if_neg hother, h.databases]
      · have hconnection : connection ≠ other := fun heq => hne (heq ▸ howner)
        show (c.connections.insert connection name).get? other = _
        rw [SortedMap.get?_insert, if_neg hconnection, h.connections other howner]
  | exec connection sql arguments => exact h.execute_other hled hne
  | query connection cursor sql arguments =>
    have hsame : owners.cursor cursor = owners.connection connection := hrequest
    have hcursor : owners.cursor cursor ≠ database := fun heq => hne (hsame.symm.trans heq)
    have hled' : (c.forget cursor).Led owners := hled
    show (c.query connection cursor sql arguments).1.Agree owners database c'
    rw [query_eq]
    exact ((h.forget_other hcursor).execute_other hled' hne).settle_other hcursor
  | queryRow connection sql arguments destinations => exact h.execute_other hled hne
  | next cursor => exact h.move_other hne
  | columns cursor => exact (fst_inspect c cursor _).symm ▸ h
  | get cursor index destination => exact (fst_inspect c cursor _).symm ▸ h
  | scan cursor destinations => exact (fst_inspect c cursor _).symm ▸ h

/-! ## Runs -/

variable {requests : List Request}

/-- Requests are answered one after the other. -/
theorem answerAll_cons (c : Client) (request : Request) (requests : List Request) :
    c.answerAll (request :: requests) = (((c.answer request).1.answerAll requests).1,
      (c.answer request).2 :: ((c.answer request).1.answerAll requests).2) := rfl

/-- The clock does not go back while requests are answered. -/
theorem clock_answerAll (c : Client) (requests : List Request) :
    c.clock.Passes (c.answerAll requests).1.clock := by
  induction requests generalizing c with
  | nil => exact .refl _
  | cons request requests ih => exact (clock_answer c request).trans (ih (c.answer request).1)

/-- The first reply is one to the database if the first request is for it. -/
theorem repliesTo_cons (owners : Owners) (database : String) (request : Request)
    (requests : List Request) (reply : Reply) (replies : List Reply) :
    repliesTo owners database (request :: requests) (reply :: replies) =
      if request.owner owners = database then reply :: repliesTo owners database requests replies
      else repliesTo owners database requests replies := by
  rw [repliesTo, List.zip_cons_cons, List.filter_cons]
  split <;> simp_all [repliesTo]

/-- **Clients that agree on a database** give the same replies to the requests for it, also if one
of them is asked nothing else. -/
theorem Agree.answerAll (h : c.Agree owners database c') (hled : c.Led owners)
    (hrequests : ∀ request ∈ requests, request.Respects owners)
    (hclock : (c.answerAll requests).1.clock = c.clock) :
    repliesTo owners database requests (c.answerAll requests).2 =
      (c'.answerAll (requests.filter fun request => request.owner owners = database)).2 := by
  induction requests generalizing c c' with
  | nil => rfl
  | cons request requests ih =>
    obtain ⟨hrequest, hrequests⟩ := List.forall_mem_cons.1 hrequests
    rw [answerAll_cons] at hclock ⊢
    -- The clock has not moved in the end, so it has not moved at all.
    have hback : (c.answer request).1.clock.Passes c.clock :=
      (clock_answerAll _ requests).trans (.inl hclock.symm)
    have hstill : (c.answer request).1.clock = c.clock :=
      (clock_answer c request).antisymm hback
    have hled' := hled.answer hrequest
    rw [repliesTo_cons, List.filter_cons]
    by_cases howner : request.owner owners = database
    · obtain ⟨hreply, hagree⟩ := h.answer_own hled hrequest howner hstill
      rw [if_pos howner, if_pos (decide_eq_true howner), answerAll_cons, hreply,
        ih hagree hled' hrequests (hclock.trans hstill.symm)]
    · have hagree := h.answer_other hled hrequest howner
      rw [if_neg howner, if_neg (by simpa using howner),
        ih hagree hled' hrequests (hclock.trans hstill.symm)]

/-! ## Options -/

/-- The options that a database has, if there is one of the name. -/
def options? (c : Client) (database : String) : Option Options :=
  (c.databases.get? database).map (·.options)

/-- Executing a statement leaves the options of every database. -/
theorem options?_execute : (c.execute connection sql arguments).1.options? database =
    c.options? database := by
  rcases execute_cases c connection sql arguments with h | ⟨name, d, hname, hd⟩
  · rw [h]
  · have hkept : ((d.execute sql arguments).run c.clock).1.2.options = d.options :=
      (Database.execute_step (rfl : (d.execute sql arguments).run c.clock = _)).1
    rw [execute_of_led hname hd, options?, options?]
    dsimp only
    rw [SortedMap.get?_insert]
    split
    · rename_i heq
      subst heq
      rw [hd, Option.map_some, Option.map_some, hkept]
    · rfl

/-- A request leaves the options of a database that is there, and may make one that is not. -/
theorem options?_answer (c : Client) (request : Request) (database : String) :
    (c.answer request).1.options? database =
      (c.options? database).or (request.opens? database) := by
  have hleaves {c' : Client} (h : c'.options? database = c.options? database) :
      c'.options? database = (c.options? database).or none := by rw [h, Option.or_none]
  cases request with
  | connect connection source =>
    show (c.connect connection source).1.options? database = _
    rcases hsource : Options.ofSource source with e | ⟨name, options⟩
    · rw [connect_of_error hsource, Request.opens?, hsource, Option.or_none]
    · rw [connect_of_ok hsource, Request.opens?, hsource, options?, options?]
      dsimp only
      by_cases hname : name = database
      · subst hname
        rw [if_pos rfl, SortedMap.contains]
        rcases hd : c.databases.get? name with _ | d
        · rw [Option.isSome_none, if_neg Bool.false_ne_true, SortedMap.get?_insert, if_pos rfl]
          rfl
        · rw [Option.isSome_some, if_pos rfl, hd]
          rfl
      · rw [if_neg hname, Option.or_none]
        split
        · rfl
        · rw [SortedMap.get?_insert, if_neg hname]
  | exec connection sql arguments => exact hleaves options?_execute
  | query connection cursor sql arguments =>
    refine hleaves ?_
    show (c.query connection cursor sql arguments).1.options? database = _
    rw [query_eq, options?, databases_settle]
    exact options?_execute (c := c.forget cursor)
  | queryRow connection sql arguments destinations => exact hleaves options?_execute
  | next cursor =>
    refine hleaves ?_
    show (c.move cursor).1.options? database = _
    unfold move
    cases c.cursors.get? cursor <;> rfl
  | columns cursor => exact hleaves (congrArg (options? · database) (fst_inspect c cursor _))
  | get cursor index destination =>
    exact hleaves (congrArg (options? · database) (fst_inspect c cursor _))
  | scan cursor destinations =>
    exact hleaves (congrArg (options? · database) (fst_inspect c cursor _))

/-- A database has the options that it had, or those of the first request that makes it. -/
theorem options?_answerAll (c : Client) (requests : List Request) (database : String) :
    (c.answerAll requests).1.options? database =
      (c.options? database).or (requests.findSome? (Request.opens? database)) := by
  induction requests generalizing c with
  | nil => exact (Option.or_none).symm
  | cons request requests ih =>
    rw [answerAll_cons, ih, options?_answer, Option.or_assoc, List.findSome?_cons]
    cases request.opens? database <;> rfl

/-- **Databases are isolated.** The requests for a database are answered as if no others had been
made, at any other time, provided that no statement has read the clock. In any case a database has
the options of the first request that opens it. -/
theorem answerAll_isolated (owners : Owners) (database : String) (requests : List Request)
    (clock : Time.Clock) :
    ((∀ request ∈ requests, request.Respects owners) →
      ((new clock).answerAll requests).1.clock = clock → ∀ clock',
        repliesTo owners database requests ((new clock).answerAll requests).2 =
          ((new clock').answerAll
            (requests.filter fun request => request.owner owners = database)).2) ∧
      ((new clock).answerAll requests).1.options? database =
        requests.findSome? (Request.opens? database) := by
  refine ⟨fun hrequests hclock clock' => ?_, options?_answerAll (new clock) requests database⟩
  have hagree : (new clock).Agree owners database (new clock') :=
    ⟨rfl, fun _ _ => rfl, fun _ _ => rfl⟩
  have hled : (new clock).Led owners := fun _ _ h => nomatch h
  exact hagree.answerAll hled hrequests hclock

/-- The names of the second database start with another letter. -/
def initials : Owners where
  connection name := if name.startsWith "b" then "b" else "a"
  cursor name := if name.startsWith "b" then "b" else "a"

/-- A client that works on two databases in turn. It opens the first one three times, with other
options and once without success. -/
def interleaved : List Request :=
  [.connect "a1" "a?autoincrement_start=10", .connect "b1" "b", .connect "a2" "a",
    .connect "a3" "a?strict_params=perhaps",
    .exec "a1" "CREATE TABLE t (id INT AUTOINCREMENT, x TEXT)" [],
    .exec "b1" "CREATE TABLE t (y INT)" [], .exec "a2" "INSERT INTO t (x) VALUES ('p')" [],
    .exec "b1" "INSERT INTO t VALUES (1), (2)" [], .query "b1" "brows" "SELECT * FROM t" [],
    .query "a1" "arows" "SELECT * FROM t" [], .next "arows", .next "brows", .next "brows",
    .get "arows" 0 ⟨.integer, false⟩]

/-- Its row has the first number of the first options, and the rows of the second database are not
seen. -/
theorem answerAll_isolated_interleaved :
    (∀ request ∈ interleaved, request.Respects initials) ∧
      ((new ⟨0, []⟩).answerAll interleaved).1.clock = ⟨0, []⟩ ∧
      repliesTo initials "a" interleaved ((new ⟨0, []⟩).answerAll interleaved).2 =
        ((new ⟨7, []⟩).answerAll
          (interleaved.filter fun request => request.owner initials = "a")).2 ∧
      ((new ⟨0, []⟩).answerAll interleaved).2.getLast? = some (.value (.integer 10)) ∧
      ((new ⟨0, []⟩).answerAll interleaved).1.options? "a" = some ⟨10, true⟩ := by
  have hrespects : ∀ request ∈ interleaved, request.Respects initials := by decide +kernel
  have hclock : ((new ⟨0, []⟩).answerAll interleaved).1.clock = ⟨0, []⟩ := by decide +kernel
  obtain ⟨hreplies, hoptions⟩ := answerAll_isolated initials "a" interleaved ⟨0, []⟩
  exact ⟨hrespects, hclock, hreplies hrespects hclock ⟨7, []⟩, by decide +kernel,
    hoptions.trans (by decide +kernel)⟩

end Client
end MiniSql
