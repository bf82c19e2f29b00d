-- SUMMARY: Web chat sessions, the commands a reply issues, and what each command does to the stored sessions.
import Stylme.Lib.Prog
import Stylme.Store.World

/-!
# Web chat sessions

The documents of a web conversation, and everything a reply reaches outside its
own memory: the session and agent collections, the catalogue API, and the model
that plans a search.
-/

namespace Stylme

open Conc

namespace Chat

/-! ## Documents -/

inductive Role where
  | user
  | assistant
  deriving DecidableEq

structure UIComponent where
  type : String
  data : Document

structure ChatMessage where
  role : Role
  text : String
  components : List UIComponent
  createdAt : Time

structure AISession where
  id : String
  accessTokenHash : String
  userID : String
  agentID : String
  swarmID : String
  status : String
  messages : List ChatMessage
  profileContext : Document
  metadata : Option Document
  expiresAt : Time
  createdAt : Time
  updatedAt : Time

/-- An agent, read for its settings of the web channel. -/
abbrev WebAgent := Agent

structure SearchPlan where
  assistantMessage : String := ""
  needsClarification : Bool := false
  clarifyingQuestion : String := ""
  lexicalQuery : String := ""
  brand : List String := []
  category : List String := []
  productType : List String := []
  colour : List String := []
  size : List String := []
  gender : List String := []
  metadata : List (String × List String) := []
  minPrice : Option Rat := none
  maxPrice : Option Rat := none
  pincode : String := ""
  swoopstyl : Bool := false
  sort : String := ""
  profileProposal : Document := []

/-! ## Commands -/

inductive Cmd where
  | now
  | getSession (id : String)
  | saveSession (session : AISession)
  | getAgent (id : String)
  | filters
  | profile (authorization : String)
  | plan (agent : WebAgent) (history : List ChatMessage) (text : String)
      (filters profile : Document)
  | search (text : String) (plan : SearchPlan) (profile : Document)

@[reducible] def Resp : Cmd → Type
  | .now => Time
  | .getSession _ => Except Err AISession
  | .saveSession _ => Except Err Unit
  | .getAgent _ => Except Err WebAgent
  | .filters | .profile _ => Except Err Document
  | .plan _ _ _ _ _ => Except Err SearchPlan
  | .search _ _ _ => Except Err Document

structure World where
  clock : Time
  agents : Collection WebAgent (·.id) (·.id)
  sessions : Collection AISession AISession.id AISession.id

/-- What the world does not determine about the answer to one command. -/
structure Oracle where
  fault : Fault := .none
  /-- The reply of the catalogue API. -/
  catalog : Except String Document := .ok []
  /-- The reply of the model that plans a search. -/
  plan : Except String SearchPlan := .ok {}

/-- Answer a store read. -/
def read {α : Type} (o : Oracle) (r : Except Err α) (w : World) : Option (Except Err α × World) :=
  match o.fault with
  | .none => some (r, w)
  | .lost m | .unacked m => some (.error (.unavailable m), w)

/-- Answer a store write that turns `w` into `w'`. -/
def write {α : Type} (o : Oracle) (r : Except Err α) (w w' : World) :
    Option (Except Err α × World) :=
  match o.fault with
  | .none => some (r, w')
  | .lost m => some (.error (.unavailable m), w)
  | .unacked m => some (.error (.unavailable m), w')

/-- The reply of a service outside the store. -/
def remote {α : Type} : Except String α → Except Err α
  | .ok a => .ok a
  | .error m => .error (.message m)

/-- The filter of `GetSession`. -/
def AISession.live (now : Time) (s : AISession) : Bool := now < s.expiresAt

def Cmd.exec : (c : Cmd) → Oracle → World → Option (Resp c × World)
  | .now, _, w => some (w.clock, w)
  | .getSession id, o, w => read o (found ((w.sessions.get id).filter (·.live w.clock))) w
  | .saveSession session, o, w =>
    match w.sessions.replaceOne session with
    | some sessions => write o (.ok ()) w { w with sessions }
    | none => read o (.error .duplicateKey) w
  | .getAgent id, o, w => read o (found (w.agents.get id)) w
  | .filters, o, w => some (remote o.catalog, w)
  | .profile _, o, w => some (remote o.catalog, w)
  | .plan _ _ _ _ _, o, w => some (remote o.plan, w)
  | .search _ _ _, o, w => some (remote o.catalog, w)

/-- The clock moves, and the store drops sessions that have expired. -/
inductive Env where
  | elapse (d : Duration)
  | expire (id : String)

def Env.apply : Env → World → World
  | .elapse d, w => { w with clock := w.clock + d }
  | .expire id, w => { w with
      sessions := w.sessions.delete fun s => s.id = id ∧ ¬ s.live w.clock }

end Chat

end Stylme
