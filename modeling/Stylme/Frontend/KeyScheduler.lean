-- SUMMARY: The rotation of the browser's AI keys: which routes are tried in which order, and what is recorded of them.
import Mathlib.Data.List.Sort
import Stylme.Frontend.Values
import Stylme.Lib.Distinct
import Stylme.Lib.Prog

/-!
# Rotation of AI keys

The browser calls the AI providers with keys from its environment (`lib/ai/providers.ts`).
`BrowserAiKeyScheduler` tries one key after another until a call succeeds. It records in the local storage
how each key has done, and leaves a key that has failed alone for a while.
-/

namespace Stylme

open Conc

namespace Frontend

namespace KeyScheduler

/-! ## Routes -/

inductive Provider where
  | google
  | openrouter
  deriving DecidableEq

def Provider.name : Provider → String
  | google => "google"
  | openrouter => "openrouter"

/-- `BrowserAiRoute` -/
structure Route where
  provider : Provider
  model : String
  keyId : String
  apiKey : String
  supportsVision : Bool
  deriving DecidableEq

/-- `process.env` -/
abbrev Env := String → Option String

def splitKeys (values : List (Option String)) : List String :=
  (((values.flatMap fun value => (value.elim [] fun s => (s.toList.splitOn ',').map String.ofList)).map trim).filter
    (· ≠ "")).eraseDups

/-- `process.env.NAME || fallback` -/
def Env.orElse (env : Env) (name fallback : String) : String :=
  match env name with
  | some value => if value ≠ "" then value else fallback
  | none => fallback

/-- The routes of one provider. -/
def providerRoutes (provider : Provider) (model : String) (keys : List String) : List Route :=
  keys.zipIdx.map fun x => ⟨provider, model, provider.name ++ "-" ++ toString (x.2 + 1), x.1, true⟩

def googleKeys (env : Env) : List String :=
  splitKeys (["NEXT_PUBLIC_GEMINI_API_KEYS", "NEXT_PUBLIC_GEMINI_API_KEY", "NEXT_PUBLIC_GEMINI_API_KEY_1",
    "NEXT_PUBLIC_GEMINI_API_KEY_2", "NEXT_PUBLIC_GEMINI_API_KEY_3", "NEXT_PUBLIC_GEMINI_API_KEY_4",
    "NEXT_PUBLIC_GOOGLE_GENERATIVE_AI_API_KEY"].map env)

def openRouterKeys (env : Env) : List String :=
  splitKeys (["NEXT_PUBLIC_OPENROUTER_API_KEYS", "NEXT_PUBLIC_OPENROUTER_API_KEY",
    "NEXT_PUBLIC_OPENROUTER_1_API_KEY", "NEXT_PUBLIC_OPENROUTER_2_API_KEY"].map env)

def getBrowserAiRoutes (env : Env) (requiresVision : Bool) : List Route :=
  if env "NEXT_PUBLIC_HACKATHON_DIRECT_AI" ≠ some "true" then []
  else
    let routes :=
      providerRoutes .google (env.orElse "NEXT_PUBLIC_AI_GEMINI_MODEL" "gemini-3.1-flash-lite") (googleKeys env) ++
        providerRoutes .openrouter (env.orElse "NEXT_PUBLIC_AI_OPENROUTER_MODEL" "google/gemini-2.5-flash")
          (openRouterKeys env)
    if requiresVision then routes.filter (·.supportsVision) else routes

/-! ## Health -/

structure KeyHealth where
  cooldownUntil : Int
  failures : Int
  successes : Int
  lastUsedAt : Int

/-- `EMPTY_HEALTH` -/
def emptyHealth : KeyHealth := ⟨0, 0, 0, 0⟩

/-- `state.keys` -/
abbrev Keys := String → Option KeyHealth

def healthKey (route : Route) : String :=
  let key := route.apiKey.toList
  route.provider.name ++ ":" ++ route.model ++ ":" ++ route.keyId ++ ":" ++
    String.ofList (key.drop (key.length - 8))

/-- The health of a route, or that of a new one. -/
def Keys.health (keys : Keys) (route : Route) : KeyHealth := (keys (healthKey route)).getD emptyHealth

/-! ## Errors -/

/-- What an operation throws. -/
inductive Thrown where
  /-- The statuses of an object, if it is an `Error`, and its message or its text -/
  | object (status statusCode responseStatus : Option Int) (isError : Bool) (text : String)
  | other

/-- `\w` -/
def isWordChar (c : Char) : Bool := c.isAlphanum ∨ c = '_'

/-- `401|403|408|409|429|5\d\d` -/
def isStatusText (word : List Char) : Bool :=
  match word with
  | ['5', a, b] => a.isDigit && b.isDigit
  | _ => word ∈ ["401".toList, "403".toList, "408".toList, "409".toList, "429".toList]

/-- The first status code that stands in the text as a word. -/
def statusIn (text : String) : Option Int :=
  ((text.toList.splitOnP (¬ isWordChar ·)).find? isStatusText).map fun word =>
    word.foldl (fun n c => 10 * n + (c.toNat - '0'.toNat : ℕ)) 0

def getStatus : Thrown → Option Int
  | .other => none
  | .object status statusCode responseStatus _ text =>
    match [status, statusCode, responseStatus].findSome? id with
    | some value => some value
    | none => statusIn text

def cooldownMs (error : Thrown) (failures : Int) : Int :=
  let status := getStatus error
  if status = some 401 ∨ status = some 403 then 30 * 60000
  else if status = some 429 then min (10 * 60000) (60000 * max 1 failures)
  else if status = some 408 ∨ status.any (500 ≤ ·) then min (2 * 60000) (10000 * max 1 failures)
  else min 60000 (5000 * max 1 failures)

/-! ## Order -/

/-- A route with its place and its health. -/
structure Ranked where
  route : Route
  routeOrder : ℕ
  stateKey : String
  health : KeyHealth

def rank (keys : Keys) (routes : List Route) : List Ranked :=
  routes.zipIdx.map fun x => ⟨x.1, x.2, healthKey x.1, keys.health x.1⟩

/-- The comparison of the first sort. -/
def compareRoutes (left right : Ranked) : Int :=
  let providerOrder : Int := left.routeOrder - right.routeOrder
  if left.route.provider ≠ right.route.provider then providerOrder
  else left.health.lastUsedAt - right.health.lastUsedAt

/-- The routes in the order in which they are tried. -/
def available (keys : Keys) (now : Int) (routes : List Route) : List Ranked :=
  let ranked := (rank keys routes).insertionSort fun left right => compareRoutes left right ≤ 0
  let ready := ranked.filter (·.health.cooldownUntil ≤ now)
  if ready ≠ [] then ready
  else ranked.insertionSort fun left right => left.health.cooldownUntil - right.health.cooldownUntil ≤ 0

/-! ## Commands -/

inductive Cmd where
  | readState
  | now
  | saveState (keys : Keys)
  | operation (route : Route)

/-- What a successful call returns. -/
structure Outcome (T : Type) where
  value : T
  route : Route
  attempts : ℕ

/-- What `execute` throws. -/
inductive Failure where
  | noKeys
  | last (error : Thrown)
  | every

@[reducible] def Resp (T : Type) : Cmd → Type
  | .readState => Keys
  | .now => Int
  | .saveState _ => Unit
  | .operation _ => Except Thrown T

variable {T : Type}

/-- `lastError instanceof Error ? lastError : new Error(…)` -/
def Failure.ofLast : Option Thrown → Failure
  | some (.object status statusCode responseStatus true text) =>
    .last (.object status statusCode responseStatus true text)
  | _ => .every

/-- The loop of `execute`. -/
def tryEach : List Ranked → Keys → Option Thrown → ℕ → Prog Cmd (Resp T) (Except Failure (Outcome T))
  | [], _, lastError, _ => pure (.error (.ofLast lastError))
  | ⟨route, _, stateKey, _⟩ :: rest, keys, _, attempts => do
    let attempts := attempts + 1
    let health := (keys stateKey).getD emptyHealth
    let usedAt ← Prog.call Cmd.now
    let health := { health with lastUsedAt := usedAt }
    let keys := Function.update keys stateKey (some health)
    Prog.call (Cmd.saveState keys)
    match ← Prog.call (Cmd.operation route) with
    | .ok value =>
      let health := { health with successes := health.successes + 1, failures := 0, cooldownUntil := 0 }
      Prog.call (Cmd.saveState (Function.update keys stateKey (some health)))
      return .ok ⟨value, route, attempts⟩
    | .error error =>
      let failures := health.failures + 1
      let failedAt ← Prog.call Cmd.now
      let health := { health with failures, cooldownUntil := failedAt + cooldownMs error failures }
      let keys := Function.update keys stateKey (some health)
      Prog.call (Cmd.saveState keys)
      tryEach rest keys (some error) attempts

def execute (routes : List Route) : Prog Cmd (Resp T) (Except Failure (Outcome T)) := do
  if routes = [] then return .error .noKeys
  else
    let keys ← Prog.call Cmd.readState
    let now ← Prog.call Cmd.now
    tryEach (available keys now routes) keys none 0

/-! ## Effects -/

/-- The local storage of the browser, and the calls that were made, newest first. -/
structure World (T : Type) where
  storage : Option Keys
  calls : List (Route × Except Thrown T)

/-- The time on the clock, whether the storage takes a write, and how an operation ends. -/
structure Oracle (T : Type) where
  time : Int := 0
  stored : Bool := true
  answer : Except Thrown T := .error .other

def Cmd.exec : (cmd : Cmd) → Oracle T → World T → Option (Resp T cmd × World T)
  | .readState, _, w => some (w.storage.getD fun _ => none, w)
  | .now, o, w => some (o.time, w)
  | .saveState keys, o, w => some ((), if o.stored then { w with storage := some keys } else w)
  | .operation route, o, w => some (o.answer, { w with calls := (route, o.answer) :: w.calls })

variable {env : Env} {requiresVision : Bool} {keys keys' : Keys} {now : Int} {routes : List Route} {ranked : List Ranked}

/-! ## Routes of an environment -/

theorem mem_providerRoutes {provider : Provider} {model : String} {l : List String} {route : Route} :
    route ∈ providerRoutes provider model l ↔ ∃ i, ∃ h : i < l.length,
      route = ⟨provider, model, provider.name ++ "-" ++ toString (i + 1), l[i], true⟩ := by
  simp only [providerRoutes, List.mem_map, Prod.exists]
  constructor
  · rintro ⟨key, i, hmem, rfl⟩
    obtain ⟨h, hkey⟩ := List.mem_zipIdx' hmem
    exact ⟨i, h, by rw [hkey]⟩
  · rintro ⟨i, h, rfl⟩
    exact ⟨l[i], i, List.mk_mem_zipIdx_iff_getElem?.2 (List.getElem?_eq_getElem h), rfl⟩

/-- The routes of Google come before those of OpenRouter. -/
theorem exists_getBrowserAiRoutes (env : Env) : ∃ model model' l l', ∀ requiresVision,
    getBrowserAiRoutes env requiresVision = providerRoutes .google model l ++ providerRoutes .openrouter model' l' := by
  unfold getBrowserAiRoutes
  dsimp only
  split
  · exact ⟨"", "", [], [], fun _ => rfl⟩
  refine ⟨env.orElse "NEXT_PUBLIC_AI_GEMINI_MODEL" "gemini-3.1-flash-lite",
    env.orElse "NEXT_PUBLIC_AI_OPENROUTER_MODEL" "google/gemini-2.5-flash", googleKeys env, openRouterKeys env,
    fun requiresVision => ?_⟩
  split
  · rw [List.filter_eq_self]
    intro route hroute
    rcases List.mem_append.1 hroute with hroute | hroute <;>
      · obtain ⟨i, h, rfl⟩ := mem_providerRoutes.1 hroute
        rfl
  · rfl

theorem toList_healthKey (route : Route) : ∃ rest, (healthKey route).toList =
    route.provider.name.toList ++ (":".toList ++ (route.model.toList ++ (":".toList ++
      (route.keyId.toList ++ ':' :: rest)))) := by
  refine ⟨route.apiKey.toList.drop (route.apiKey.toList.length - 8), ?_⟩
  simp only [healthKey, String.toList_append, String.toList_ofList, List.append_assoc]
  rfl

/-- The place of a key can be read off its identifier, whatever follows. -/
theorem position_inj {i j : ℕ} {rest rest' : List Char}
    (h : (toString (i + 1)).toList ++ ':' :: rest = (toString (j + 1)).toList ++ ':' :: rest') : i = j := by
  have hdigits : ∀ n, (toString (n + 1)).toList = Nat.toDigits 10 (n + 1) := fun n => by
    rw [Nat.toString_eq_ofList_toDigits, String.toList_ofList]
  have htake : ∀ n (rest : List Char),
      (Nat.toDigits 10 (n + 1) ++ ':' :: rest).takeWhile Char.isDigit = Nat.toDigits 10 (n + 1) := fun n rest => by
    rw [List.takeWhile_append_of_pos fun c hc => Nat.isDigit_of_mem_toDigits (by decide) (by decide) hc,
      List.takeWhile_cons_of_neg (by decide), List.append_nil]
  rw [hdigits, hdigits] at h
  have heq := congrArg (List.takeWhile Char.isDigit) h
  rw [htake, htake] at heq
  have hvalue := congrArg (fun l => Nat.ofDigitChars 10 l 0) heq
  simp only [Nat.ofDigitChars_ten_toDigits] at hvalue
  exact Nat.succ.inj hvalue

/-- The health of two routes of a provider is recorded apart. -/
theorem healthKey_inj_of_provider {provider : Provider} {model : String} {l : List String} {route route' : Route}
    (hroute : route ∈ providerRoutes provider model l) (hroute' : route' ∈ providerRoutes provider model l)
    (h : healthKey route = healthKey route') : route = route' := by
  obtain ⟨i, hi, rfl⟩ := mem_providerRoutes.1 hroute
  obtain ⟨j, hj, rfl⟩ := mem_providerRoutes.1 hroute'
  have h := congrArg String.toList h
  obtain ⟨rest, hrest⟩ := toList_healthKey ⟨provider, model, provider.name ++ "-" ++ toString (i + 1), l[i], true⟩
  obtain ⟨rest', hrest'⟩ := toList_healthKey ⟨provider, model, provider.name ++ "-" ++ toString (j + 1), l[j], true⟩
  rw [hrest, hrest'] at h
  simp only [String.toList_append, List.append_assoc, List.append_cancel_left_eq] at h
  obtain rfl := position_inj h
  rfl

theorem healthKey_ne {route route' : Route} (hroute : route.provider = .google)
    (hroute' : route'.provider = .openrouter) :
    healthKey route ≠ healthKey route' := by
  intro h
  have h := congrArg (fun s => s.toList.head?) h
  obtain ⟨rest, hrest⟩ := toList_healthKey route
  obtain ⟨rest', hrest'⟩ := toList_healthKey route'
  simp only [hrest, hrest', hroute, hroute'] at h
  exact absurd (Option.some.inj h) (by decide)

theorem provider_of_mem {provider : Provider} {model : String} {l : List String} {route : Route}
    (h : route ∈ providerRoutes provider model l) : route.provider = provider := by
  obtain ⟨i, hi, rfl⟩ := mem_providerRoutes.1 h
  rfl

/-- No two keys of an environment share a record. -/
theorem healthKey_inj {route route' : Route} (hroute : route ∈ getBrowserAiRoutes env requiresVision)
    (hroute' : route' ∈ getBrowserAiRoutes env requiresVision) (h : healthKey route = healthKey route') :
    route = route' := by
  obtain ⟨model, model', l, l', heq⟩ := exists_getBrowserAiRoutes env
  rw [heq] at hroute hroute'
  rcases List.mem_append.1 hroute with hroute | hroute <;> rcases List.mem_append.1 hroute' with hroute' | hroute'
  · exact healthKey_inj_of_provider hroute hroute' h
  · exact absurd h (healthKey_ne (provider_of_mem hroute) (provider_of_mem hroute'))
  · exact absurd h.symm (healthKey_ne (provider_of_mem hroute') (provider_of_mem hroute))
  · exact healthKey_inj_of_provider hroute hroute' h

theorem nodup_providerRoutes (provider : Provider) (model : String) (l : List String) :
    (providerRoutes provider model l).Nodup := by
  refine List.Nodup.map_on ?_ (List.Nodup.of_map Prod.snd ?_)
  · rintro ⟨key, i⟩ hi ⟨key', j⟩ hj h
    have hid := congrArg (fun route : Route => (route.keyId ++ ":").toList) h
    simp only [String.toList_append, List.append_assoc, List.append_cancel_left_eq] at hid
    have hposition : (toString (i + 1)).toList ++ ':' :: [] = (toString (j + 1)).toList ++ ':' :: [] := hid
    obtain rfl := position_inj hposition
    exact Prod.ext (congrArg Route.apiKey h) rfl
  · rw [List.zipIdx_map_snd]
    exact List.nodup_range'

theorem nodup_routes : (getBrowserAiRoutes env requiresVision).Nodup := by
  obtain ⟨model, model', l, l', heq⟩ := exists_getBrowserAiRoutes env
  rw [heq, List.nodup_append]
  refine ⟨nodup_providerRoutes .google model l, nodup_providerRoutes .openrouter model' l', ?_⟩
  rintro a ha b hb rfl
  have hprovider := (provider_of_mem ha).symm.trans (provider_of_mem hb)
  cases hprovider

/-- Every route of Google is before every route of OpenRouter. -/
theorem pairwise_routes : (getBrowserAiRoutes env requiresVision).Pairwise fun a b =>
    a.provider = .openrouter → b.provider = .openrouter := by
  obtain ⟨model, model', l, l', heq⟩ := exists_getBrowserAiRoutes env
  rw [heq, List.pairwise_append]
  refine ⟨?_, ?_, fun a _ b hb _ => provider_of_mem hb⟩
  · refine List.pairwise_of_forall_mem_list fun a ha b _ hopen => ?_
    rw [provider_of_mem ha] at hopen
    cases hopen
  · exact List.pairwise_of_forall_mem_list fun a _ b hb _ => provider_of_mem hb

/-! ## The order -/

/-- The route is not cooling down. -/
def Ready (keys : Keys) (now : Int) (route : Route) : Prop := (keys.health route).cooldownUntil ≤ now

instance : DecidablePred (Ready keys now) := fun _ => inferInstanceAs (Decidable (_ ≤ _))

/-- Google comes first, and a key that was used longer ago before another of its provider. -/
def Before (keys : Keys) (a b : Route) : Prop :=
  (a.provider = .google ∧ b.provider = .openrouter) ∨
    (a.provider = b.provider ∧ (keys.health a).lastUsedAt ≤ (keys.health b).lastUsedAt)

instance : DecidableRel (Before keys) := fun _ _ => inferInstanceAs (Decidable (_ ∨ _))

/-- The cooldown of one route ends before that of the other. -/
def Sooner (keys : Keys) (a b : Route) : Prop := (keys.health a).cooldownUntil ≤ (keys.health b).cooldownUntil

instance : DecidableRel (Sooner keys) := fun _ _ => inferInstanceAs (Decidable (_ ≤ _))

instance : Std.Total (Before keys) := ⟨fun a b => by
  rcases ha : a.provider <;> rcases hb : b.provider <;> simp [Before, ha, hb, Int.le_total]⟩

instance : IsTrans Route (Before keys) := ⟨fun a b c hab hbc => by
  rcases hab with ⟨ha, hb⟩ | ⟨hab, hle⟩ <;> rcases hbc with ⟨hb', hc⟩ | ⟨hbc, hle'⟩
  · exact .inl ⟨ha, hc⟩
  · exact .inl ⟨ha, hbc ▸ hb⟩
  · exact .inl ⟨hab.trans hb', hc⟩
  · exact .inr ⟨hab.trans hbc, hle.trans hle'⟩⟩

instance : Std.Total (Sooner keys) := ⟨fun _ _ => Int.le_total _ _⟩

instance : IsTrans Route (Sooner keys) := ⟨fun _ _ _ => Int.le_trans⟩

theorem mem_rank {x : Ranked} : x ∈ rank keys routes ↔
    routes[x.routeOrder]? = some x.route ∧ x.stateKey = healthKey x.route ∧ x.health = keys.health x.route := by
  obtain ⟨route, i, stateKey, health⟩ := x
  simp only [rank, List.mem_map, Prod.exists, Ranked.mk.injEq]
  constructor
  · rintro ⟨route', j, hmem, rfl, rfl, rfl, rfl⟩
    exact ⟨List.mk_mem_zipIdx_iff_getElem?.1 hmem, rfl, rfl⟩
  · rintro ⟨hget, rfl, rfl⟩
    exact ⟨route, i, List.mk_mem_zipIdx_iff_getElem?.2 hget, rfl, rfl, rfl, rfl⟩

theorem mem_rank_of_mem_available {x : Ranked} (h : x ∈ available keys now routes) : x ∈ rank keys routes := by
  dsimp only [available] at h
  split at h
  · exact (List.mem_insertionSort _).1 (List.mem_of_mem_filter h)
  · exact (List.mem_insertionSort _).1 ((List.mem_insertionSort _).1 h)

theorem map_route_rank : (rank keys routes).map Ranked.route = routes := by
  rw [rank, List.map_map]
  exact List.zipIdx_map_fst 0 routes

/-- The comparison of the first sort, which is no order in general, is one on routes that stand by provider. -/
theorem compareRoutes_iff (hroutes : routes.Pairwise fun a b => a.provider = .openrouter → b.provider = .openrouter)
    {x y : Ranked} (hx : x ∈ rank keys routes) (hy : y ∈ rank keys routes) :
    compareRoutes x y ≤ 0 ↔ Before keys x.route y.route := by
  obtain ⟨hgetx, -, hhealthx⟩ := mem_rank.1 hx
  obtain ⟨hgety, -, hhealthy⟩ := mem_rank.1 hy
  obtain ⟨hltx, hgetx⟩ := List.getElem?_eq_some_iff.1 hgetx
  obtain ⟨hlty, hgety⟩ := List.getElem?_eq_some_iff.1 hgety
  have hpairwise := List.pairwise_iff_getElem.1 hroutes
  unfold compareRoutes Before
  dsimp only
  by_cases hprovider : x.route.provider = y.route.provider
  · rw [if_neg (not_not_intro hprovider), hhealthx, hhealthy]
    constructor
    · intro h
      exact .inr ⟨hprovider, by omega⟩
    · rintro (⟨hgoogle, hopen⟩ | ⟨-, hle⟩)
      · rw [hprovider, hopen] at hgoogle
        cases hgoogle
      · omega
  · rw [if_pos hprovider]
    have hne : x.routeOrder ≠ y.routeOrder := fun heq => hprovider (by
      rw [← hgetx, ← hgety]
      exact congrArg Route.provider (getElem_congr_idx heq))
    constructor
    · intro h
      have hlt : x.routeOrder < y.routeOrder := by omega
      have himp := hpairwise _ _ hltx hlty hlt
      rw [hgetx, hgety] at himp
      left
      rcases hpx : x.route.provider with _ | _ <;> rcases hpy : y.route.provider with _ | _ <;> simp_all
    · rintro (⟨hgoogle, hopen⟩ | ⟨heq, -⟩)
      · by_contra hgt
        have hlt : y.routeOrder < x.routeOrder := by omega
        have himp := hpairwise _ _ hlty hltx hlt
        rw [hgetx, hgety] at himp
        rw [himp hopen] at hgoogle
        cases hgoogle
      · exact absurd heq hprovider

/-- What `execute` tries, as routes. -/
theorem map_route_available (hroutes : routes.Pairwise fun a b => a.provider = .openrouter → b.provider = .openrouter) :
    (available keys now routes).map Ranked.route =
      let order := routes.insertionSort (Before keys)
      if order.filter (Ready keys now ·) ≠ [] then order.filter (Ready keys now ·)
      else order.insertionSort (Sooner keys) := by
  have hranked : ((rank keys routes).insertionSort fun left right => compareRoutes left right ≤ 0).map Ranked.route =
      routes.insertionSort (Before keys) := by
    rw [List.map_insertionSort _ (Before keys) Ranked.route _ fun x hx y hy => compareRoutes_iff hroutes hx hy,
      map_route_rank]
  have hhealth : ∀ x ∈ (rank keys routes).insertionSort fun left right => compareRoutes left right ≤ 0,
      x.health = keys.health x.route := fun x hx =>
    (mem_rank.1 ((List.mem_insertionSort _).1 hx)).2.2
  have hready : (((rank keys routes).insertionSort fun left right => compareRoutes left right ≤ 0).filter
      (·.health.cooldownUntil ≤ now)).map Ranked.route = (routes.insertionSort (Before keys)).filter (Ready keys now ·) := by
    rw [← hranked, List.filter_map]
    refine congrArg (List.map Ranked.route) (List.filter_congr fun x hx => ?_)
    exact decide_eq_decide.2 (by rw [hhealth x hx]; exact Iff.rfl)
  dsimp only [available]
  by_cases hnil : (routes.insertionSort (Before keys)).filter (Ready keys now ·) = []
  · rw [if_neg (not_not_intro hnil), if_neg (not_not_intro (List.map_eq_nil_iff.1 (hready.trans hnil))), ← hranked]
    refine List.map_insertionSort _ (Sooner keys) Ranked.route _ fun x hx y hy => ?_
    rw [hhealth x hx, hhealth y hy, Sooner]
    omega
  · rw [if_pos hnil, if_pos fun h => hnil (hready.symm.trans (List.map_eq_nil_iff.2 h)), hready]

/-- The order in which `execute` tries the routes: those that are ready by provider and use, or all by the
end of their cooldown. -/
structure Order (keys : Keys) (now : Int) (routes order : List Route) : Prop where
  nodup : order.Nodup
  mem : ∀ route, route ∈ order ↔ route ∈ routes ∧ (Ready keys now route ∨ ∀ other ∈ routes, ¬ Ready keys now other)
  ready : (∃ route ∈ routes, Ready keys now route) → order.Pairwise (Before keys)
  cooling : (∀ route ∈ routes, ¬ Ready keys now route) → order.Pairwise (Sooner keys)

theorem order_available (hnodup : routes.Nodup)
    (hroutes : routes.Pairwise fun a b => a.provider = .openrouter → b.provider = .openrouter) :
    Order keys now routes ((available keys now routes).map Ranked.route) := by
  rw [map_route_available hroutes]
  dsimp only
  have hperm := List.perm_insertionSort (Before keys) routes
  by_cases hready : ∃ route ∈ routes, Ready keys now route
  · obtain ⟨route, hmem, hroute⟩ := hready
    have hne : (routes.insertionSort (Before keys)).filter (Ready keys now ·) ≠ [] :=
      List.ne_nil_of_mem (List.mem_filter.2 ⟨hperm.mem_iff.2 hmem, decide_eq_true hroute⟩)
    rw [if_pos hne]
    refine ⟨(hperm.nodup_iff.2 hnodup).filter _, fun other => ?_, fun _ => ?_,
      fun hcold => absurd hroute (hcold route hmem)⟩
    · rw [List.mem_filter, hperm.mem_iff, decide_eq_true_iff]
      refine and_congr_right fun _ => ⟨.inl, fun h => h.resolve_right fun hcold => hcold route hmem hroute⟩
    · exact (List.pairwise_insertionSort (Before keys) routes).filter _
  · have hcold : ∀ route ∈ routes, ¬ Ready keys now route := fun route hmem hroute => hready ⟨route, hmem, hroute⟩
    have hnil : (routes.insertionSort (Before keys)).filter (Ready keys now ·) = [] :=
      List.filter_eq_nil_iff.2 fun route hmem hroute => hcold route (hperm.mem_iff.1 hmem) (of_decide_eq_true hroute)
    have hperm' := (List.perm_insertionSort (Sooner keys) (routes.insertionSort (Before keys))).trans hperm
    rw [if_neg (not_not_intro hnil)]
    refine ⟨hperm'.nodup_iff.2 hnodup, fun other => ?_, fun h => absurd h hready, fun _ => ?_⟩
    · rw [hperm'.mem_iff]
      exact ⟨fun h => ⟨h, .inr hcold⟩, And.left⟩
    · exact List.pairwise_insertionSort (Sooner keys) _

/-! ## Calls -/

/-- The record of a key after a call that succeeded. -/
def KeyHealth.succeeded (health : KeyHealth) (usedAt : Int) : KeyHealth := ⟨0, 0, health.successes + 1, usedAt⟩

/-- The record of a key after a call that failed. -/
def KeyHealth.failed (health : KeyHealth) (error : Thrown) (usedAt failedAt : Int) : KeyHealth :=
  ⟨failedAt + cooldownMs error (health.failures + 1), health.failures + 1, health.successes, usedAt⟩

/-- The records in the storage. -/
def World.read (w : World T) : Keys := w.storage.getD fun _ => none

variable {os : List (Oracle T)} {w w' : World T} {r : Except Failure (Outcome T)} {lastError : Option Thrown} {n : ℕ}

/-- What one round of the loop does. -/
theorem run_tryEach_cons {x : Ranked} (h : (tryEach (x :: ranked) keys lastError n).run Cmd.exec os w = some (r, w')) :
    ∃ usedAt ∈ os.map Oracle.time,
      (∃ value, r = .ok ⟨value, x.route, n + 1⟩ ∧ w'.calls = (x.route, .ok value) :: w.calls ∧
        ((∀ o ∈ os, o.stored) → w'.storage = some (Function.update keys x.stateKey
          (some (((keys x.stateKey).getD emptyHealth).succeeded usedAt))))) ∨
      ∃ error, ∃ failedAt ∈ os.map Oracle.time, ∃ keys' os' w₁,
        keys' = Function.update keys x.stateKey
          (some (((keys x.stateKey).getD emptyHealth).failed error usedAt failedAt)) ∧
        (tryEach ranked keys' (some error) (n + 1)).run Cmd.exec os' w₁ = some (r, w') ∧ os' ⊆ os ∧
        w₁.calls = (x.route, .error error) :: w.calls ∧ ((∀ o ∈ os, o.stored) → w₁.storage = some keys') := by
  obtain ⟨route, routeOrder, stateKey, health⟩ := x
  rw [tryEach] at h
  obtain ⟨o₁, os₁, usedAt, w₁, rfl, h₁, h⟩ := Prog.run_call_bind h
  cases h₁
  obtain ⟨o₂, os₂, _, w₂, rfl, h₂, h⟩ := Prog.run_call_bind h
  cases h₂
  obtain ⟨o₃, os₃, answer, w₃, rfl, h₃, h⟩ := Prog.run_call_bind h
  cases h₃
  refine ⟨o₁.time, List.mem_cons_self, ?_⟩
  cases hanswer : o₃.answer with
  | ok value =>
    left
    rw [hanswer] at h
    obtain ⟨o₄, os₄, _, w₄, rfl, h₄, h⟩ := Prog.run_call_bind h
    cases h₄
    cases h
    refine ⟨value, rfl, ?_, fun hstored => ?_⟩
    · split <;> split <;> rfl
    · rw [if_pos (hstored o₄ (by simp)), Function.update_idem]
      rfl
  | error error =>
    right
    rw [hanswer] at h
    obtain ⟨o₄, os₄, failedAt, w₄, rfl, h₄, h⟩ := Prog.run_call_bind h
    cases h₄
    obtain ⟨o₅, os₅, _, w₅, rfl, h₅, h⟩ := Prog.run_call_bind h
    cases h₅
    rw [Function.update_idem] at h
    refine ⟨error, o₄.time, by simp, _, os₅, _, rfl, h, ?_, ?_, fun hstored => ?_⟩
    · exact fun o ho => by simp [ho]
    · split <;> split <;> rfl
    · rw [if_pos (hstored o₅ (by simp))]
      rfl

/-- The calls `tried` follow the order until one succeeds. -/
structure Follows (order : List Route) (tried : List (Route × Except Thrown T)) (n : ℕ) (lastError : Option Thrown)
    (r : Except Failure (Outcome T)) : Prop where
  upto : tried.map Prod.fst <+: order
  ok : ∀ outcome, r = .ok outcome → ∃ failed, tried = failed ++ [(outcome.route, .ok outcome.value)] ∧
    (∀ call ∈ failed, ¬ call.2.isOk) ∧ outcome.attempts = n + tried.length
  error : ∀ failure, r = .error failure → tried.map Prod.fst = order ∧
    ∃ errors : List Thrown, tried.map Prod.snd = errors.map .error ∧ failure = .ofLast (errors.getLast?.or lastError)

theorem run_tryEach (h : (tryEach ranked keys lastError n).run Cmd.exec os w = some (r, w')) :
    ∃ tried : List (Route × Except Thrown T),
      w'.calls = tried.reverse ++ w.calls ∧ Follows (ranked.map Ranked.route) tried n lastError r := by
  induction ranked generalizing keys lastError n os w with
  | nil =>
    cases h
    refine ⟨[], rfl, List.prefix_rfl, fun outcome hok => (by cases hok), fun failure hfailure => ⟨rfl, [], rfl, ?_⟩⟩
    exact (Except.error.inj hfailure).symm
  | cons x ranked ih =>
    obtain ⟨usedAt, -, ⟨value, rfl, hcalls, -⟩ | ⟨error, failedAt, -, keys', os', w₁, rfl, hrun, -, hcalls, -⟩⟩ :=
      run_tryEach_cons h
    · refine ⟨[(x.route, .ok value)], hcalls, ⟨ranked.map Ranked.route, rfl⟩, fun outcome hok => ?_,
        fun failure hfailure => (by cases hfailure)⟩
      cases hok
      exact ⟨[], rfl, fun call hcall => (by cases hcall), rfl⟩
    · obtain ⟨tried, hcalls', hfollows⟩ := ih hrun
      refine ⟨(x.route, .error error) :: tried, by simp [hcalls', hcalls], ?_, fun outcome hok => ?_,
        fun failure hfailure => ?_⟩
      · exact List.cons_prefix_cons.2 ⟨rfl, hfollows.upto⟩
      · obtain ⟨failed, rfl, hfailed, hattempts⟩ := hfollows.ok outcome hok
        refine ⟨(x.route, .error error) :: failed, rfl, ?_, ?_⟩
        · rintro call (_ | ⟨_, hcall⟩)
          · exact Bool.false_ne_true
          · exact hfailed call hcall
        · rw [hattempts, List.length_cons]
          omega
      · obtain ⟨horder, errors, herrors, rfl⟩ := hfollows.error failure hfailure
        refine ⟨congrArg (x.route :: ·) horder, error :: errors, by rw [List.map_cons, herrors, List.map_cons], ?_⟩
        cases errors using List.reverseRecOn with
        | nil => rfl
        | append_singleton errors last => rw [List.getLast?_cons]; simp

theorem run_execute (hne : routes ≠ []) (h : (execute routes).run Cmd.exec os w = some (r, w')) :
    ∃ o₁ o₂ os', os = o₁ :: o₂ :: os' ∧
      (tryEach (available w.read o₂.time routes) w.read none 0).run Cmd.exec os' w = some (r, w') := by
  rw [execute, if_neg hne] at h
  obtain ⟨o₁, os₁, keys, w₁, rfl, h₁, h⟩ := Prog.run_call_bind h
  cases h₁
  obtain ⟨o₂, os₂, now, w₂, rfl, h₂, h⟩ := Prog.run_call_bind h
  cases h₂
  exact ⟨o₁, o₂, os₂, rfl, h⟩

theorem run_execute_nil (h : (execute []).run Cmd.exec os w = some (r, w')) : r = .error .noKeys ∧ w' = w := by
  rw [execute, if_pos rfl] at h
  cases h
  exact ⟨rfl, rfl⟩

/-- `execute` calls the routes of an environment in order, until one answers, and throws the last error if none does. -/
theorem execute_follows (h : (execute (getBrowserAiRoutes env requiresVision)).run Cmd.exec os w = some (r, w')) :
    ∃ now order, ∃ tried : List (Route × Except Thrown T),
      Order w.read now (getBrowserAiRoutes env requiresVision) order ∧ w'.calls = tried.reverse ++ w.calls ∧
      (getBrowserAiRoutes env requiresVision = [] → tried = [] ∧ r = .error .noKeys) ∧
      (getBrowserAiRoutes env requiresVision ≠ [] →
        os[1]?.map Oracle.time = some now ∧ Follows order tried 0 none r) := by
  by_cases hnil : getBrowserAiRoutes env requiresVision = []
  · rw [hnil] at h ⊢
    obtain ⟨rfl, rfl⟩ := run_execute_nil h
    exact ⟨0, [], [], order_available List.nodup_nil List.Pairwise.nil, rfl, fun _ => ⟨rfl, rfl⟩,
      fun hne => absurd rfl hne⟩
  · obtain ⟨o₁, o₂, os', rfl, hrun⟩ := run_execute hnil h
    obtain ⟨tried, hcalls, hfollows⟩ := run_tryEach hrun
    exact ⟨o₂.time, _, tried, order_available nodup_routes pairwise_routes, hcalls, fun h => absurd h hnil,
      fun _ => ⟨rfl, hfollows⟩⟩

namespace Sample

/-- Two keys of Google and one of OpenRouter. -/
def twoKeys : Env := fun name =>
  if name = "NEXT_PUBLIC_HACKATHON_DIRECT_AI" then some "true"
  else if name = "NEXT_PUBLIC_GEMINI_API_KEYS" then some "first-key, second-key,first-key"
  else if name = "NEXT_PUBLIC_OPENROUTER_API_KEY" then some "open-key"
  else none

/-- The first key is refused at the given time, the second one answers. -/
def rotation (time : Int) : List (Oracle String) :=
  [⟨time, true, .error .other⟩, ⟨time, true, .error .other⟩, ⟨time, true, .error .other⟩, ⟨time, true, .error .other⟩,
    ⟨time, true, .error (.object (some 429) none none true "limit")⟩, ⟨time, true, .error .other⟩,
    ⟨time, true, .error .other⟩, ⟨time, true, .error .other⟩, ⟨time, true, .error .other⟩, ⟨time, true, .ok "shirt"⟩,
    ⟨time, true, .error .other⟩]

theorem rotates : ∃ x, (execute (getBrowserAiRoutes twoKeys true)).run Cmd.exec (rotation 5) ⟨none, []⟩ = some x :=
  Option.isSome_iff_exists.1 (by decide +kernel)

end Sample

theorem execute_follows_rotation :
    ∃ x, (execute (getBrowserAiRoutes Sample.twoKeys true)).run Cmd.exec (Sample.rotation 5) ⟨none, []⟩ = some x ∧
      ∃ now order, ∃ tried : List (Route × Except Thrown String),
        Order (World.read (T := String) ⟨none, []⟩) now (getBrowserAiRoutes Sample.twoKeys true) order ∧
          x.2.calls = tried.reverse ++ [] ∧
          (getBrowserAiRoutes Sample.twoKeys true = [] → tried = [] ∧ x.1 = .error .noKeys) ∧
          (getBrowserAiRoutes Sample.twoKeys true ≠ [] →
            (Sample.rotation 5)[1]?.map Oracle.time = some now ∧ Follows order tried 0 none x.1) := by
  obtain ⟨x, hrun⟩ := Sample.rotates
  exact ⟨x, hrun, execute_follows hrun⟩

/-! ## Records -/

/-- The answers that a route gave, newest first. -/
def answersOf (calls : List (Route × Except Thrown T)) (route : Route) : List (Except Thrown T) :=
  (calls.filter (·.1 = route)).map Prod.snd

variable {calls : List (Route × Except Thrown T)} {clock : Int → Prop} {route route' : Route} {error : Thrown} {value : T}
  {usedAt failedAt : Int}

theorem answersOf_cons_self {answer : Except Thrown T} :
    answersOf ((route, answer) :: calls) route = answer :: answersOf calls route := by
  rw [answersOf, List.filter_cons_of_pos (by simp)]
  rfl

theorem answersOf_cons_of_ne {answer : Except Thrown T} (h : route' ≠ route) :
    answersOf ((route', answer) :: calls) route = answersOf calls route := by
  rw [answersOf, List.filter_cons_of_neg (by simpa using h)]
  rfl

/-- The record of a route is the account of its calls, with times that the clock has shown. -/
structure Accounts (clock : Int → Prop) (keys : Keys) (calls : List (Route × Except Thrown T)) (route : Route) :
    Prop where
  successes : (keys.health route).successes = (answersOf calls route).countP (·.isOk)
  failures : (keys.health route).failures = ((answersOf calls route).takeWhile (!·.isOk)).length
  unused : answersOf calls route = [] → keys (healthKey route) = none
  used : answersOf calls route ≠ [] → clock (keys.health route).lastUsedAt
  rested : (∀ error, (answersOf calls route).head? ≠ some (.error error)) → (keys.health route).cooldownUntil = 0
  cooling : ∀ error, (answersOf calls route).head? = some (.error error) → ∃ failedAt, clock failedAt ∧
    (keys.health route).cooldownUntil = failedAt + cooldownMs error (keys.health route).failures

theorem health_update_self {health : KeyHealth} :
    Keys.health (Function.update keys (healthKey route) (some health)) route = health := by
  rw [Keys.health, Function.update_self]
  rfl

theorem Accounts.succeeded (h : Accounts clock keys calls route) (hclock : clock usedAt) :
    Accounts clock (Function.update keys (healthKey route) (some ((keys.health route).succeeded usedAt)))
      ((route, .ok value) :: calls) route := by
  constructor <;> rw [answersOf_cons_self] <;> try rw [health_update_self]
  · rw [List.countP_cons_of_pos rfl, Nat.cast_add, ← h.successes]
    rfl
  · rfl
  · exact fun hnil => (by cases hnil)
  · exact fun _ => hclock
  · exact fun _ => rfl
  · exact fun error herror => (by cases herror)

theorem Accounts.failed (h : Accounts clock keys calls route) (hclock : clock usedAt) (hfailed : clock failedAt) :
    Accounts clock (Function.update keys (healthKey route) (some ((keys.health route).failed error usedAt failedAt)))
      ((route, .error error) :: calls) route := by
  constructor <;> rw [answersOf_cons_self] <;> try rw [health_update_self]
  · rw [List.countP_cons_of_neg Bool.false_ne_true, ← h.successes]
    rfl
  · rw [List.takeWhile_cons_of_pos rfl, List.length_cons, Nat.cast_add, ← h.failures]
    rfl
  · exact fun hnil => (by cases hnil)
  · exact fun _ => hclock
  · exact fun hrested => absurd rfl (hrested error)
  · intro error' herror
    cases herror
    exact ⟨failedAt, hfailed, rfl⟩

/-- A call leaves the records of the other routes. -/
theorem Accounts.frame {answer : Except Thrown T} {health : KeyHealth} (h : Accounts clock keys calls route)
    (hne : route' ≠ route) (hkey : healthKey route ≠ healthKey route') :
    Accounts clock (Function.update keys (healthKey route') (some health)) ((route', answer) :: calls) route := by
  have hhealth : Keys.health (Function.update keys (healthKey route') (some health)) route = keys.health route := by
    rw [Keys.health, Function.update_of_ne hkey]
    rfl
  constructor <;> rw [answersOf_cons_of_ne hne] <;> try rw [hhealth]
  · exact h.successes
  · exact h.failures
  · rw [Function.update_of_ne hkey]
    exact h.unused
  · exact h.used
  · exact h.rested
  · exact h.cooling

/-! ## Runs -/

/-- Every answer is read at a time of the clock, and every write is stored. -/
def Stores (clock : Int → Prop) (os : List (Oracle T)) : Prop := ∀ o ∈ os, o.stored = true ∧ clock o.time

/-- What the records and the calls have in common is kept by every call of a route. -/
structure Kept (clock : Int → Prop) (routes : List Route) (I : Keys → List (Route × Except Thrown T) → Prop) : Prop where
  succeeded : ∀ route ∈ routes, ∀ keys calls value usedAt, clock usedAt → I keys calls →
    I (Function.update keys (healthKey route) (some ((keys.health route).succeeded usedAt))) ((route, .ok value) :: calls)
  failed : ∀ route ∈ routes, ∀ keys calls error usedAt failedAt, clock usedAt → clock failedAt → I keys calls →
    I (Function.update keys (healthKey route) (some ((keys.health route).failed error usedAt failedAt)))
      ((route, .error error) :: calls)

variable {I : Keys → List (Route × Except Thrown T) → Prop}

theorem Kept.tryEach (hI : Kept clock routes I) (hos : Stores clock os)
    (hranked : ∀ x ∈ ranked, x.route ∈ routes ∧ x.stateKey = healthKey x.route) (hread : w.read = keys)
    (h : (tryEach ranked keys lastError n).run Cmd.exec os w = some (r, w')) (hw : I keys w.calls) :
    I w'.read w'.calls := by
  induction ranked generalizing keys lastError n os w with
  | nil =>
    cases h
    rw [hread]
    exact hw
  | cons x ranked ih =>
    obtain ⟨hx, hkey⟩ := hranked x List.mem_cons_self
    have hstored : ∀ o ∈ os, o.stored = true := fun o ho => (hos o ho).1
    have htime : ∀ {time}, time ∈ os.map Oracle.time → clock time := fun hmem => by
      obtain ⟨o, ho, rfl⟩ := List.mem_map.1 hmem
      exact (hos o ho).2
    obtain ⟨usedAt, hused, ⟨value, rfl, hcalls, hwrite⟩ |
      ⟨error, failedAt, hfailed, keys', os', w₁, rfl, hrun, hsub, hcalls, hwrite⟩⟩ := run_tryEach_cons h
    · have hread' := congrArg (Option.getD · fun _ => none) (hwrite hstored)
      rw [hkey] at hread'
      rw [World.read, hcalls]
      exact hread' ▸ hI.succeeded _ hx _ _ value _ (htime hused) hw
    · refine ih (fun o ho => hos o (hsub ho)) (fun y hy => hranked y (List.mem_cons_of_mem _ hy))
        (congrArg (Option.getD · fun _ => none) (hwrite hstored)) hrun ?_
      rw [hcalls, hkey]
      exact hI.failed _ hx _ _ error _ _ (htime hused) (htime hfailed) hw

theorem Kept.execute (hI : Kept clock routes I) (hos : Stores clock os)
    (h : (execute routes).run Cmd.exec os w = some (r, w')) (hw : I w.read w.calls) : I w'.read w'.calls := by
  by_cases hnil : routes = []
  · obtain ⟨-, rfl⟩ := run_execute_nil (hnil ▸ h)
    exact hw
  · obtain ⟨o₁, o₂, os', rfl, hrun⟩ := run_execute hnil h
    refine hI.tryEach (fun o ho => hos o (by simp [ho])) (fun x hx => ?_) rfl hrun hw
    obtain ⟨hget, hkey, -⟩ := mem_rank.1 (mem_rank_of_mem_available hx)
    exact ⟨List.mem_of_getElem? hget, hkey⟩

/-- Where `execute`s one after another lead, from an empty storage, when the clock shows only times it may. -/
inductive Reach (env : Env) (clock : Int → Prop) : World T → Prop
  | start : Reach env clock ⟨none, []⟩
  | execute {w w' : World T} {requiresVision : Bool} {os : List (Oracle T)} {r : Except Failure (Outcome T)}
      (h : Reach env clock w) (hos : Stores clock os)
      (hrun : (execute (getBrowserAiRoutes env requiresVision)).run Cmd.exec os w = some (r, w')) : Reach env clock w'

theorem getBrowserAiRoutes_eq (requiresVision requiresVision' : Bool) :
    getBrowserAiRoutes env requiresVision = getBrowserAiRoutes env requiresVision' := by
  obtain ⟨model, model', l, l', heq⟩ := exists_getBrowserAiRoutes env
  rw [heq, heq]

theorem Reach.kept (requiresVision : Bool) (h : Reach env clock w)
    (hI : Kept clock (getBrowserAiRoutes env requiresVision) I)
    (hstart : I (fun _ => none) []) : I w.read w.calls := by
  induction h with
  | start => exact hstart
  | execute _ hos hrun ih =>
    rw [getBrowserAiRoutes_eq _ requiresVision] at hrun
    exact hI.execute hos hrun ih

theorem accounts_of_reach (h : Reach env clock w) :
    ∀ route ∈ getBrowserAiRoutes env requiresVision, Accounts clock w.read w.calls route := by
  have hother : ∀ a ∈ getBrowserAiRoutes env requiresVision, ∀ b ∈ getBrowserAiRoutes env requiresVision, a ≠ b →
      healthKey b ≠ healthKey a := fun a ha b hb hne heq => hne (healthKey_inj hb ha heq).symm
  refine h.kept requiresVision
    (I := fun keys calls => ∀ route ∈ getBrowserAiRoutes env requiresVision, Accounts clock keys calls route)
    ⟨?_, ?_⟩ fun route _ =>
    ⟨rfl, rfl, fun _ => rfl, fun hne => absurd rfl hne, fun _ => rfl, fun _ herror => (by cases herror)⟩
  · intro called hcalled keys calls value usedAt hused ih route hroute
    by_cases heq : called = route
    · subst heq
      exact (ih _ hcalled).succeeded hused
    · exact (ih route hroute).frame heq (hother _ hcalled _ hroute heq)
  · intro called hcalled keys calls error usedAt failedAt hused hfailed ih route hroute
    by_cases heq : called = route
    · subst heq
      exact (ih _ hcalled).failed hused hfailed
    · exact (ih route hroute).frame heq (hother _ hcalled _ hroute heq)

/-- The records are those of the keys of the environment that were called, and each tells how its calls went. -/
structure Ledger (env : Env) (clock : Int → Prop) (w : World T) : Prop where
  called : ∀ call ∈ w.calls, call.1 ∈ getBrowserAiRoutes env true
  filed : ∀ key, w.read key ≠ none → ∃ call ∈ w.calls, healthKey call.1 = key
  accounts : ∀ route ∈ getBrowserAiRoutes env true, Accounts clock w.read w.calls route

/-- A record that is written is that of the route called. -/
theorem filed_update (call : Route × Except Thrown T) {health : KeyHealth}
    (h : ∀ key, keys key ≠ none → ∃ call ∈ calls, healthKey call.1 = key) {key : String}
    (hkey : Function.update keys (healthKey call.1) (some health) key ≠ none) :
    ∃ call' ∈ call :: calls, healthKey call'.1 = key := by
  by_cases heq : healthKey call.1 = key
  · exact ⟨call, List.mem_cons_self, heq⟩
  · rw [Function.update_of_ne (Ne.symm heq)] at hkey
    obtain ⟨call', hmem, hfiled⟩ := h key hkey
    exact ⟨call', List.mem_cons_of_mem _ hmem, hfiled⟩

theorem cooldownMs_le (error : Thrown) (failures : Int) : cooldownMs error failures ≤ 30 * 60000 := by
  unfold cooldownMs
  dsimp only
  split
  · exact Int.le_refl _
  split
  · omega
  split
  · omega
  · omega

/-- No key is left alone for more than half an hour. -/
theorem cooldownUntil_le {t : Int} (ht : 0 ≤ t) (h : Accounts (· ≤ t) keys calls route) :
    (keys.health route).cooldownUntil ≤ t + 30 * 60000 := by
  by_cases hcooling : ∃ error, (answersOf calls route).head? = some (.error error)
  · obtain ⟨error, herror⟩ := hcooling
    obtain ⟨failedAt, hfailed, heq⟩ := h.cooling error herror
    have hle := cooldownMs_le error (keys.health route).failures
    omega
  · rw [h.rested fun error herror => hcooling ⟨error, herror⟩]
    omega

/-- An `execute` half an hour after the last one leaves no key out: it fails only once each has been called, those
of a provider from the one used longest ago. -/
theorem execute_after_pause {t : Int} (ht : 0 ≤ t) (h : Reach env (· ≤ t) w) (hos : ∀ o ∈ os, t + 30 * 60000 ≤ o.time)
    (hrun : (execute (getBrowserAiRoutes env requiresVision)).run Cmd.exec os w = some (r, w'))
    (hne : getBrowserAiRoutes env requiresVision ≠ []) :
    ∃ order, ∃ tried : List (Route × Except Thrown T), order.Perm (getBrowserAiRoutes env requiresVision) ∧
      order.Pairwise (Before w.read) ∧ w'.calls = tried.reverse ++ w.calls ∧ Follows order tried 0 none r := by
  obtain ⟨o₁, o₂, os', rfl, htries⟩ := run_execute hne hrun
  obtain ⟨tried, hcalls, hfollows⟩ := run_tryEach htries
  have hready : ∀ route ∈ getBrowserAiRoutes env requiresVision, Ready w.read o₂.time route := fun route hroute =>
    (cooldownUntil_le ht (accounts_of_reach h route hroute)).trans (hos o₂ (by simp))
  have horder : Order w.read o₂.time (getBrowserAiRoutes env requiresVision) _ :=
    order_available nodup_routes pairwise_routes
  obtain ⟨route, hroute⟩ := List.exists_mem_of_ne_nil _ hne
  refine ⟨_, tried, (List.perm_ext_iff_of_nodup horder.nodup nodup_routes).2 fun other => ?_,
    horder.ready ⟨route, hroute, hready route hroute⟩, hcalls, hfollows⟩
  rw [horder.mem]
  exact ⟨And.left, fun hother => ⟨hother, .inl (hready other hother)⟩⟩

namespace Sample

theorem rotates_after_pause :
    ∃ x, (execute (getBrowserAiRoutes twoKeys true)).run Cmd.exec (rotation 5) ⟨none, []⟩ = some x ∧
    ∃ y, (execute (getBrowserAiRoutes twoKeys true)).run Cmd.exec (rotation 1800005) x.2 = some y := by
  have hsome : (((execute (getBrowserAiRoutes twoKeys true)).run Cmd.exec (rotation 5) ⟨none, []⟩).bind fun x =>
      (execute (getBrowserAiRoutes twoKeys true)).run Cmd.exec (rotation 1800005) x.2).isSome := by
    decide +kernel
  obtain ⟨y, hy⟩ := Option.isSome_iff_exists.1 hsome
  obtain ⟨x, hx, hy⟩ := Option.bind_eq_some_iff.1 hy
  exact ⟨x, hx, y, hy⟩

end Sample

theorem execute_after_pause_rotation :
    ∃ x, (execute (getBrowserAiRoutes Sample.twoKeys true)).run Cmd.exec (Sample.rotation 5) ⟨none, []⟩ = some x ∧
    ∃ y, (execute (getBrowserAiRoutes Sample.twoKeys true)).run Cmd.exec (Sample.rotation 1800005) x.2 = some y ∧
    ∃ order, ∃ tried : List (Route × Except Thrown String), order.Perm (getBrowserAiRoutes Sample.twoKeys true) ∧
      order.Pairwise (Before x.2.read) ∧ y.2.calls = tried.reverse ++ x.2.calls ∧ Follows order tried 0 none y.1 := by
  obtain ⟨x, hx, y, hy⟩ := Sample.rotates_after_pause
  refine ⟨x, hx, y, hy, execute_after_pause (t := 5) (by decide) (.execute .start ?_ hx) ?_ hy (by decide +kernel)⟩
  · have hall : (Sample.rotation 5).all fun o => o.stored && decide (o.time ≤ 5) := by decide
    intro o ho
    simpa using List.all_eq_true.1 hall o ho
  · have hall : (Sample.rotation 1800005).all fun o => decide (5 + 30 * 60000 ≤ o.time) := by decide
    intro o ho
    exact of_decide_eq_true (List.all_eq_true.1 hall o ho)

end KeyScheduler

end Frontend

end Stylme
