-- SUMMARY: A web session keeps the turn of every reply, as long as no reply saves over one it has not read.
import Mathlib.Algebra.Group.Nat.Even
import Stylme.Chat.Reply
import Stylme.Service.System

/-!
# Complete histories

A reply saves the copy of the session it read at its start. Whatever another
reply has saved in between is overwritten with it.
-/

namespace Stylme

open Conc

namespace Chat

/-! ## The latest of a list -/

section Latest

variable {α : Type} {n : ℕ} {l m : List α}

theorem latest_eq_drop : latest n l = l.drop (l.length - n) := by
  unfold latest
  split
  · rfl
  · rename_i h
    rw [Nat.sub_eq_zero_of_le (Nat.le_of_not_lt h), List.drop_zero]

theorem latest_of_le (h : l.length ≤ n) : latest n l = l := if_neg (Nat.not_lt.2 h)

theorem length_latest : (latest n l).length = min n l.length := by
  rw [latest_eq_drop, List.length_drop]
  omega

theorem latest_append_of_le (h : m.length ≤ n) :
    latest n (l ++ m) = latest (n - m.length) l ++ m := by
  rw [latest_eq_drop, latest_eq_drop, List.drop_append_of_le_length
    (by rw [List.length_append]; omega), List.length_append]
  congr 2
  omega

/-- What is cut off before an addition would be cut off after it. -/
theorem latest_latest_append : latest n (latest n l ++ m) = latest n (l ++ m) := by
  rcases Nat.lt_or_ge n l.length with h | h
  · simp only [latest_eq_drop, List.length_append, List.length_drop]
    rw [← List.drop_append_of_le_length (by omega : l.length - n ≤ l.length), List.drop_drop]
    congr 1
    omega
  · rw [latest_of_le h]

end Latest

/-- Messages of the user and of the assistant, turn by turn. -/
def Alternating : List ChatMessage → Prop
  | [] => True
  | [_] => False
  | user :: assistant :: rest => user.role = .user ∧ assistant.role = .assistant ∧ Alternating rest

theorem Alternating.append {l m : List ChatMessage} (hl : Alternating l) (hm : Alternating m) :
    Alternating (l ++ m) := by
  induction l using Alternating.induct with
  | case1 => exact hm
  | case2 _ => exact hl.elim
  | case3 user assistant rest ih => exact ⟨hl.1, hl.2.1, ih hl.2.2⟩

theorem Alternating.even {l : List ChatMessage} (h : Alternating l) : Even l.length := by
  induction l using Alternating.induct with
  | case1 => exact Even.zero
  | case2 _ => exact h.elim
  | case3 user assistant rest ih => exact (ih h.2.2).add ⟨1, rfl⟩

theorem Alternating.drop {l : List ChatMessage} (h : Alternating l) (k : ℕ) :
    Alternating (l.drop (2 * k)) := by
  induction k generalizing l with
  | zero => exact h
  | succ k ih =>
    match l, h with
    | [], _ => exact trivial
    | user :: assistant :: rest, h => exact ih h.2.2

theorem Alternating.latest {l : List ChatMessage} (h : Alternating l) {n : ℕ} (hn : Even n) :
    Alternating (latest n l) := by
  obtain ⟨i, hi⟩ := h.even
  obtain ⟨j, hj⟩ := hn
  have hcut : l.length - n = 2 * (i - j) := by omega
  rw [latest_eq_drop, hcut]
  exact h.drop (i - j)

/-! ## The agent's bound -/

theorem WebAgent.maxStored_even (agent : WebAgent) : Even agent.maxStored := by
  unfold maxStored
  split
  · split
    · exact ⟨_, Nat.mul_two _⟩
    · exact ⟨12, rfl⟩
  · exact ⟨12, rfl⟩

theorem WebAgent.two_le_maxStored (agent : WebAgent) : 2 ≤ agent.maxStored := by
  unfold maxStored
  split
  · split
    · rename_i web _ hpos
      have : 0 < web.maxHistoryMessages.toNat := Int.pos_iff_toNat_pos.1 hpos
      omega
    · omega
  · omega

/-- A saved session ends with the turn it was saved for. -/
theorem AISession.Extends.latest_two {x session : AISession} {agent : WebAgent}
    {user assistant : ChatMessage} (h : x.Extends session agent user assistant) :
    latest 2 x.messages = [user, assistant] := by
  obtain ⟨-, -, profile, ttl, now, rfl⟩ := h
  have hle : [user, assistant].length ≤ agent.maxStored := agent.two_le_maxStored
  change latest 2 (latest agent.maxStored (session.messages ++ [user, assistant])) = _
  rw [latest_append_of_le hle, latest_append_of_le (Nat.le_refl 2)]
  simp [latest_eq_drop]

/-! ## What one command does -/

/-- The command replaces the session. -/
def Cmd.saves (id : String) : Cmd → Bool
  | .saveSession s => s.id = id
  | _ => false

/-- The command reads the session. -/
def Cmd.reads (id : String) : Cmd → Bool
  | .getSession k => k = id
  | _ => false

section Exec

variable {o : Oracle} {w w' : World}

theorem read_eq {α : Type} {r r' : Except Err α} (h : read o r w = some (r', w')) :
    w' = w ∧ ∀ a, r' = .ok a → r = .ok a := by
  unfold read at h
  split at h <;> obtain ⟨rfl, rfl⟩ := Prod.mk.inj (Option.some.inj h)
  · exact ⟨rfl, fun a ha => ha⟩
  · exact ⟨rfl, fun a ha => by cases ha⟩
  · exact ⟨rfl, fun a ha => by cases ha⟩

/-- No command changes an agent, and only a save changes the sessions. -/
theorem exec_agents {cmd : Cmd} {r : Resp cmd} (h : cmd.exec o w = some (r, w')) :
    w'.agents = w.agents := by
  cases cmd with
  | saveSession x =>
    simp only [Cmd.exec] at h
    split at h
    · unfold write at h
      split at h <;> obtain ⟨-, rfl⟩ := Prod.mk.inj (Option.some.inj h) <;> rfl
    · rw [(read_eq h).1]
  | getSession id | getAgent id => rw [(read_eq h).1]
  | _ => obtain ⟨-, rfl⟩ := Prod.mk.inj (Option.some.inj h); rfl

theorem exec_sessions {cmd : Cmd} {r : Resp cmd} (h : cmd.exec o w = some (r, w')) {id : String}
    (hsaves : ¬ cmd.saves id) : w'.sessions.get id = w.sessions.get id := by
  cases cmd with
  | saveSession x =>
    have hne : id ≠ x.id := fun heq => hsaves (by simp [Cmd.saves, heq])
    simp only [Cmd.exec] at h
    split at h
    · rename_i sessions hreplace
      unfold write at h
      split at h <;> obtain ⟨-, rfl⟩ := Prod.mk.inj (Option.some.inj h)
      · exact Collection.get_replaceOne_of_ne hreplace hne
      · rfl
      · exact Collection.get_replaceOne_of_ne hreplace hne
    · rw [(read_eq h).1]
  | getSession id | getAgent id => rw [(read_eq h).1]
  | _ => obtain ⟨-, rfl⟩ := Prod.mk.inj (Option.some.inj h); rfl

/-- A save takes effect, or fails and leaves the sessions as they were. -/
theorem exec_saveSession {x : AISession} {r : Except Err Unit}
    (h : (Cmd.saveSession x).exec o w = some (r, w')) :
    w'.sessions.get x.id = some x ∨ ((∃ e, r = .error e) ∧ w'.sessions = w.sessions) := by
  simp only [Cmd.exec] at h
  obtain ⟨sessions, hreplace⟩ := Collection.replaceOne_of_id (t := w.sessions) (d := x)
  rw [hreplace] at h
  simp only [write] at h
  split at h <;> obtain ⟨rfl, rfl⟩ := Prod.mk.inj (Option.some.inj h)
  · exact .inl (Collection.get_replaceOne_self hreplace)
  · exact .inr ⟨⟨_, rfl⟩, rfl⟩
  · exact .inl (Collection.get_replaceOne_self hreplace)

theorem exec_getSession {id : String} {s : AISession}
    (h : (Cmd.getSession id).exec o w = some (.ok s, w')) : w.sessions.get id = some s := by
  have hfound := (read_eq h).2 s rfl
  cases hget : w.sessions.get id with
  | none => simp [hget, found] at hfound
  | some s' =>
    rw [hget, Option.filter_some] at hfound
    split at hfound
    · exact congrArg some (Except.ok.inj hfound)
    · cases hfound

theorem exec_getAgent {id : String} {a : WebAgent}
    (h : (Cmd.getAgent id).exec o w = some (.ok a, w')) : w.agents.get id = some a := by
  have hfound := (read_eq h).2 a rfl
  cases hget : w.agents.get id with
  | none => simp [hget, found] at hfound
  | some a' =>
    rw [hget] at hfound
    exact congrArg some (Except.ok.inj hfound)

end Exec

/-! ## Undisturbed copies -/

abbrev State := Pool ReplyRequest Cmd Resp (Except Err WebReply) World

abbrev View := Config ReplyRequest Cmd Resp World Phase

abbrev Step := Label ReplyRequest Oracle Env

/-- Nothing has been saved to the session since thread `t` last read it. -/
def undisturbed (id : String) (t : ℕ) (log : List (Entry Cmd Resp World)) : Bool :=
  (log.takeWhile fun e => ¬ (e.tid = t ∧ e.cmd.reads id)).all fun e => ¬ e.cmd.saves id

/-- A reply saves to the session only what it has read, with its own turn. -/
def unraced (id : String) (σ : State) : Step → Bool
  | .exec t _ =>
    match σ.next t with
    | some (_, .saveSession x) => x.id = id → undisturbed id t σ.log
    | _ => true
  | _ => true

/-- The threads that have saved to the session, in order. -/
def savers (id : String) (log : List (Entry Cmd Resp World)) : List ℕ :=
  (log.reverse.filter (·.cmd.saves id)).map (·.tid)

section Log

variable {id : String} {t : ℕ} {e : Entry Cmd Resp World} {log : List (Entry Cmd Resp World)}

theorem undisturbed_cons : undisturbed id t (e :: log) ↔
    (e.tid = t ∧ e.cmd.reads id) ∨ (¬ e.cmd.saves id ∧ undisturbed id t log) := by
  unfold undisturbed
  rw [List.takeWhile_cons]
  by_cases h : e.tid = t ∧ e.cmd.reads id
  · simp [h]
  · simp [h]

theorem savers_cons :
    savers id (e :: log) = savers id log ++ if e.cmd.saves id then [e.tid] else [] := by
  unfold savers
  by_cases h : e.cmd.saves id <;> simp [h]

end Log

/-! ## The history of a session -/

/-- The messages of each turn, with the thread that saved it. -/
abbrev Turns := List (ℕ × List ChatMessage)

/-- What a session that started as `s₀` holds after these turns. -/
def history (agent : WebAgent) (s₀ : AISession) (turns : Turns) : List ChatMessage :=
  latest agent.maxStored (s₀.messages ++ turns.flatMap (·.2))

section History

variable {id : String} {agent : WebAgent} {s₀ : AISession} {turns : Turns}
variable {log : List (Entry Cmd Resp World)} {e : Entry Cmd Resp World} {request : ReplyRequest}
variable {t u : ℕ} {l : Phase}

/-- A saved turn comes after the history that was read. -/
theorem history_append {x session : AISession} {user assistant : ChatMessage}
    (hx : x.Extends session agent user assistant)
    (hsession : session.messages = history agent s₀ turns) :
    x.messages = history agent s₀ (turns ++ [(t, [user, assistant])]) := by
  obtain ⟨-, -, profile, ttl, now, rfl⟩ := hx
  change latest agent.maxStored (session.messages ++ [user, assistant]) = _
  rw [hsession, history, latest_latest_append, history, List.flatMap_append, List.append_assoc]
  simp

/-- A copy of the session, which is the stored one until somebody else saves. -/
def Copied (id : String) (agent : WebAgent) (s₀ : AISession) (turns : Turns)
    (log : List (Entry Cmd Resp World)) (t : ℕ) (request : ReplyRequest) (s : AISession) : Prop :=
  s.id = request.sessionID ∧ (request.sessionID = id → s.agentID = s₀.agentID ∧
    (undisturbed id t log → s.messages = history agent s₀ turns))

/-- What is known of the thread `t` in each phase of its reply. -/
def Known (id : String) (agent : WebAgent) (s₀ : AISession) (turns : Turns)
    (log : List (Entry Cmd Resp World)) (t : ℕ) (request : ReplyRequest) : Phase → Prop
  | .start => t ∉ turns.map (·.1)
  | .loaded s => t ∉ turns.map (·.1) ∧ Copied id agent s₀ turns log t request s
  | .replying s a => t ∉ turns.map (·.1) ∧ Copied id agent s₀ turns log t request s ∧
      (request.sessionID = id → a = agent)
  | .saved x ok => ok → request.sessionID = id → (t, latest 2 x.messages) ∈ turns

theorem Copied.cons {s : AISession} (h : Copied id agent s₀ turns log t request s)
    (he : e.tid = t → ¬ e.cmd.reads id) :
    Copied id agent s₀ turns (e :: log) t request s := by
  refine ⟨h.1, fun hid => ⟨(h.2 hid).1, fun hund => ?_⟩⟩
  rcases undisturbed_cons.1 hund with ⟨htid, hreads⟩ | ⟨-, hund⟩
  · exact absurd hreads (he htid)
  · exact (h.2 hid).2 hund

/-- A save by another thread leaves no copy undisturbed. -/
theorem Copied.disturb {s : AISession} {turns' : Turns}
    (h : Copied id agent s₀ turns log t request s) (he : e.tid ≠ t) (hsaves : e.cmd.saves id) :
    Copied id agent s₀ turns' (e :: log) t request s := by
  refine ⟨h.1, fun hid => ⟨(h.2 hid).1, fun hund => ?_⟩⟩
  rcases undisturbed_cons.1 hund with ⟨htid, -⟩ | ⟨hsaves', -⟩
  · exact absurd htid he
  · exact absurd hsaves hsaves'

/-- A command that is not a read of this thread teaches it nothing new. -/
theorem Known.cons (h : Known id agent s₀ turns log t request l)
    (he : e.tid = t → ¬ e.cmd.reads id) :
    Known id agent s₀ turns (e :: log) t request l := by
  cases l with
  | start => exact h
  | loaded s => exact ⟨h.1, h.2.cons he⟩
  | replying s a => exact ⟨h.1, h.2.1.cons he, h.2.2⟩
  | saved x ok => exact h

theorem Known.disturb {turns' : Turns} (h : Known id agent s₀ turns log t request l)
    (he : e.tid ≠ t) (hsaves : e.cmd.saves id) (hsub : ∀ turn ∈ turns, turn ∈ turns')
    (hnew : ∀ turn ∈ turns', turn.1 = t → turn ∈ turns) :
    Known id agent s₀ turns' (e :: log) t request l := by
  have hmem : t ∉ turns.map (·.1) → t ∉ turns'.map (·.1) := by
    intro hnot hin
    obtain ⟨turn, hturn, htid⟩ := List.mem_map.1 hin
    exact hnot (List.mem_map.2 ⟨turn, hnew turn hturn htid, htid⟩)
  cases l with
  | start => exact hmem h
  | loaded s => exact ⟨hmem h.1, h.2.disturb he hsaves⟩
  | replying s a => exact ⟨hmem h.1, h.2.1.disturb he hsaves, h.2.2⟩
  | saved x ok => exact fun hok hid => hsub _ (h hok hid)

/-- The session holds the history of the turns that were saved. -/
structure Kept (id : String) (agent : WebAgent) (s₀ : AISession) (turns : Turns) (cfg : View) :
    Prop where
  agents : cfg.shared.agents.get s₀.agentID = some agent
  stored : ∀ s, cfg.shared.sessions.get id = some s →
    s.agentID = s₀.agentID ∧ s.messages = history agent s₀ turns
  threads : ∀ {t request l b}, cfg.view t = some ⟨request, l, b⟩ →
    Known id agent s₀ turns cfg.log t request l
  unstarted : ∀ t, cfg.view t = none → t ∉ turns.map (·.1)
  distinct : (turns.map (·.1)).Nodup
  order : (turns.map (·.1)).Sublist (savers id cfg.log)
  pairs : ∀ turn ∈ turns, ∃ user assistant,
    user.role = .user ∧ assistant.role = .assistant ∧ turn.2 = [user, assistant]

section Exec

variable {cmd : Cmd} {r : Resp cmd} {o : Oracle} {w : World} {cfg : View}

/-- A command that does not save to the session leaves its history, and the
thread that issued it knows what its next phase is to know. -/
theorem Kept.known_next (h : Kept id agent s₀ turns cfg) (ht : cfg.view t = some ⟨request, l, true⟩)
    (hpermits : permits request l cmd) (hexec : cmd.exec o cfg.shared = some (r, w))
    (hsaves : ¬ cmd.saves id) :
    Known id agent s₀ turns (⟨t, cmd, r, w⟩ :: cfg.log) t request (next l cmd r) := by
  have hknown := h.threads ht
  cases l with
  | start =>
    cases cmd with
    | getSession k =>
      cases r with
      | error e => exact hknown
      | ok s =>
        obtain ⟨hs, hid⟩ := Collection.get_eq_some_iff.1 (exec_getSession hexec)
        refine ⟨hknown, hid.trans hpermits, fun hrequest => ?_⟩
        have hstored := h.stored s (Collection.get_eq_some_iff.2 ⟨hs, hid.trans (hpermits.trans hrequest)⟩)
        exact ⟨hstored.1, fun _ => hstored.2⟩
    | saveSession x | getAgent k => exact hpermits.elim
    | _ => exact hknown
  | loaded s =>
    cases cmd with
    | getAgent k =>
      cases r with
      | error e => exact hknown.cons fun _ => Bool.false_ne_true
      | ok a =>
        refine ⟨hknown.1, hknown.2.cons fun _ => Bool.false_ne_true, fun hrequest => ?_⟩
        have hagent := exec_getAgent hexec
        obtain rfl := hpermits
        rw [(hknown.2.2 hrequest).1, h.agents] at hagent
        exact (Option.some.inj hagent).symm
    | saveSession x | getSession k => exact hpermits.elim
    | _ => exact hknown.cons fun _ => Bool.false_ne_true
  | replying s a =>
    cases cmd with
    | saveSession x =>
      obtain ⟨user, assistant, -, -, profile, ttl, now, rfl⟩ := hpermits
      have hother : request.sessionID ≠ id := by
        intro hrequest
        exact hsaves (decide_eq_true (hknown.2.1.1.trans hrequest))
      cases r with
      | error e => exact fun _ hrequest => absurd hrequest hother
      | ok u => exact fun _ hrequest => absurd hrequest hother
    | getSession k | getAgent k => exact hpermits.elim
    | _ => exact hknown.cons fun _ => Bool.false_ne_true
  | saved x ok =>
    cases cmd with
    | getSession k | saveSession x | getAgent k => exact hpermits.elim
    | _ => exact hknown

theorem Kept.exec_other (h : Kept id agent s₀ turns cfg) (ht : cfg.view t = some ⟨request, l, true⟩)
    (hpermits : permits request l cmd) (hexec : cmd.exec o cfg.shared = some (r, w))
    (hsaves : ¬ cmd.saves id) :
    Kept id agent s₀ turns ⟨w, Function.update cfg.view t (some ⟨request, next l cmd r, true⟩),
      ⟨t, cmd, r, w⟩ :: cfg.log⟩ where
  agents := (congrArg (·.get s₀.agentID) (exec_agents hexec)).trans h.agents
  stored s hs := h.stored s ((exec_sessions hexec hsaves).symm.trans hs)
  threads {u request' l' b} hu := by
    rcases View.of_update hu with ⟨rfl, rfl, rfl, -⟩ | ⟨hut, hv⟩
    · exact h.known_next ht hpermits hexec hsaves
    · exact (h.threads hv).cons fun htid => absurd htid.symm hut
  unstarted u hu := by
    by_cases hut : u = t
    · subst hut
      simp at hu
    · exact h.unstarted u (by simpa [hut] using hu)
  distinct := h.distinct
  order := by
    rw [savers_cons, if_neg hsaves, List.append_nil]
    exact h.order
  pairs := h.pairs

theorem ne_of_unstarted {v : Chat.Phase} {b : Bool}
    (hu : Function.update cfg.view t (some ⟨request, v, b⟩) u = none) :
    u ≠ t ∧ cfg.view u = none := by
  rw [Function.update_apply] at hu
  split at hu
  · cases hu
  · rename_i hut
    exact ⟨hut, hu⟩

/-- A save of an undisturbed copy adds its turn to the history. -/
theorem Kept.save_applied {x session : AISession} {user assistant : ChatMessage}
    {r : Except Err Unit} (h : Kept id agent s₀ turns cfg)
    (ht : cfg.view t = some ⟨request, .replying session agent, true⟩)
    (hextends : x.Extends session agent user assistant) (hagent : session.agentID = s₀.agentID)
    (hcopied : session.messages = history agent s₀ turns) (hsaves : (Cmd.saveSession x).saves id)
    (hw : w.sessions.get id = some x) (hagents : w.agents = cfg.shared.agents) :
    Kept id agent s₀ (turns ++ [(t, [user, assistant])]) ⟨w,
      Function.update cfg.view t
        (some ⟨request, next (.replying session agent) (.saveSession x) r, true⟩),
      ⟨t, .saveSession x, r, w⟩ :: cfg.log⟩ where
  agents := hagents ▸ h.agents
  stored s hs := by
    obtain rfl := Option.some.inj (hw.symm.trans hs)
    refine ⟨?_, history_append hextends hcopied⟩
    obtain ⟨-, -, profile, ttl, now, rfl⟩ := hextends
    exact hagent
  threads {u request' l' b} hu := by
    rcases View.of_update hu with ⟨rfl, rfl, rfl, -⟩ | ⟨hut, hv⟩
    · cases r with
      | error e => exact fun hok => absurd hok Bool.false_ne_true
      | ok v =>
        refine fun _ _ => List.mem_append_right _ ?_
        rw [hextends.latest_two]
        exact List.mem_singleton_self _
    · refine (h.threads hv).disturb (Ne.symm hut) hsaves
        (fun turn hturn => List.mem_append_left _ hturn) fun turn hturn htid => ?_
      rcases List.mem_append.1 hturn with hturn | hturn
      · exact hturn
      · obtain rfl := List.mem_singleton.1 hturn
        exact absurd htid.symm hut
  unstarted u hu := by
    obtain ⟨hut, hu⟩ := ne_of_unstarted hu
    simp only [List.map_append, List.mem_append, not_or]
    exact ⟨h.unstarted u hu, fun hmem => hut (List.mem_singleton.1 hmem)⟩
  distinct := by
    rw [List.map_append]
    refine List.nodup_append.2 ⟨h.distinct, List.nodup_singleton _, ?_⟩
    rintro u hu v hv rfl
    obtain rfl : u = t := List.mem_singleton.1 hv
    exact (h.threads ht).1 hu
  order := by
    rw [savers_cons, if_pos hsaves, List.map_append]
    exact h.order.append (List.Sublist.refl _)
  pairs turn hturn := by
    rcases List.mem_append.1 hturn with hturn | hturn
    · exact h.pairs turn hturn
    · obtain rfl := List.mem_singleton.1 hturn
      exact ⟨user, assistant, hextends.1, hextends.2.1, rfl⟩

/-- A save that does not reach the store leaves the history. -/
theorem Kept.save_lost {x session : AISession} {e : Err} (h : Kept id agent s₀ turns cfg)
    (hsessions : w.sessions = cfg.shared.sessions) (hagents : w.agents = cfg.shared.agents) :
    Kept id agent s₀ turns ⟨w,
      Function.update cfg.view t
        (some ⟨request, next (.replying session agent) (.saveSession x) (.error e), true⟩),
      ⟨t, .saveSession x, .error e, w⟩ :: cfg.log⟩ where
  agents := hagents ▸ h.agents
  stored s hs := h.stored s (hsessions ▸ hs)
  threads {u request' l' b} hu := by
    rcases View.of_update hu with ⟨rfl, rfl, rfl, -⟩ | ⟨hut, hv⟩
    · exact fun hok => absurd hok Bool.false_ne_true
    · exact (h.threads hv).cons fun htid => absurd htid.symm hut
  unstarted u hu := h.unstarted u (ne_of_unstarted hu).2
  distinct := h.distinct
  order := by
    rw [savers_cons]
    exact h.order.trans (List.sublist_append_left _ _)
  pairs := h.pairs

theorem Kept.exec_save {x : AISession} {r : Except Err Unit} (h : Kept id agent s₀ turns cfg)
    (ht : cfg.view t = some ⟨request, l, true⟩) (hpermits : permits request l (.saveSession x))
    (hexec : (Cmd.saveSession x).exec o cfg.shared = some (r, w)) (hx : x.id = id)
    (hund : undisturbed id t cfg.log) :
    ∃ turns', Kept id agent s₀ turns' ⟨w,
      Function.update cfg.view t (some ⟨request, next l (.saveSession x) r, true⟩),
      ⟨t, .saveSession x, r, w⟩ :: cfg.log⟩ := by
  cases l with
  | start | loaded s | saved x ok => exact hpermits.elim
  | replying session a =>
    obtain ⟨user, assistant, hextends⟩ := hpermits
    obtain ⟨-, ⟨hid, hcopied⟩, hagent⟩ := h.threads ht
    have hrequest : request.sessionID = id := by
      obtain ⟨-, -, profile, ttl, now, rfl⟩ := hextends
      exact hid.symm.trans hx
    obtain rfl := hagent hrequest
    rcases exec_saveSession hexec with hstored | ⟨⟨e, rfl⟩, hsessions⟩
    · exact ⟨_, h.save_applied ht hextends (hcopied hrequest).1 ((hcopied hrequest).2 hund)
        (decide_eq_true hx) (hx ▸ hstored) (exec_agents hexec)⟩
    · exact ⟨turns, h.save_lost hsessions (exec_agents hexec)⟩

end Exec

end History

/-! ## Runs -/

section Runs

variable {platform : Platform} {id : String} {agent : WebAgent} {s₀ : AISession} {w₀ : World}
variable {σ : State}

abbrev view (σ : State) : View := σ.config protocol fun _ => .start

theorem Env.apply_agents {e : Env} {w : World} : (e.apply w).agents = w.agents := by
  cases e <;> rfl

/-- Time and the expiry of sessions add nothing to a session. -/
theorem Env.apply_sessions {e : Env} {w : World} {s : AISession}
    (hs : (e.apply w).sessions.get id = some s) : w.sessions.get id = some s := by
  cases e with
  | elapse d => exact hs
  | expire k =>
    obtain ⟨hmem, hid⟩ := Collection.get_eq_some_iff.1 hs
    exact Collection.get_eq_some_iff.2 ⟨(Collection.mem_delete.1 hmem).1, hid⟩

theorem kept (hagent : w₀.agents.get s₀.agentID = some agent)
    (hs₀ : w₀.sessions.get id = some s₀) (hlen : s₀.messages.length ≤ agent.maxStored)
    (h : (replies platform).Reach (fun σ l => unraced id σ l) (Pool.init w₀) σ) :
    ∃ turns, Kept id agent s₀ turns (view σ) := by
  refine h.invariant (I := fun cfg => ∃ turns, Kept id agent s₀ turns cfg)
    (reply_conforms platform) .init ?_ ?_
  · refine ⟨[], hagent, ?_, ?_, fun _ _ => List.not_mem_nil, .nil, List.nil_sublist _,
      fun turn hturn => absurd hturn List.not_mem_nil⟩
    · intro s hs
      obtain rfl := Option.some.inj (hs₀.symm.trans hs)
      refine ⟨rfl, ?_⟩
      rw [history, List.flatMap_nil, List.append_nil, latest_of_le hlen]
    · intro t request l b ht
      cases ht
  · intro ρ l cfg _ hok ⟨turns, hI⟩ hstep
    cases hstep with
    | @spawn t request ht =>
      refine ⟨turns, hI.agents, hI.stored, ?_, ?_, hI.distinct, hI.order, hI.pairs⟩
      · intro u request' l' b hu
        rcases View.of_update hu with ⟨rfl, rfl, rfl, -⟩ | ⟨-, hv⟩
        · exact hI.unstarted _ ht
        · exact hI.threads hv
      · exact fun u hu => hI.unstarted u (ne_of_unstarted hu).2
    | @exec t o request ph cmd r w hnext ht hpermits hexec =>
      by_cases hsaves : cmd.saves id
      · cases cmd with
        | saveSession x =>
          have hx : x.id = id := of_decide_eq_true hsaves
          have hund : undisturbed id t ρ.log := by
            simp only [unraced, hnext, decide_eq_true_eq] at hok
            exact hok hx
          exact hI.exec_save ht hpermits hexec hx hund
        | _ => cases hsaves
      · exact ⟨turns, hI.exec_other ht hpermits hexec hsaves⟩
    | @crash t request ph b ht =>
      refine ⟨turns, hI.agents, hI.stored, ?_, ?_, hI.distinct, hI.order, hI.pairs⟩
      · intro u request' l' b' hu
        rcases View.of_update hu with ⟨rfl, rfl, rfl, -⟩ | ⟨-, hv⟩
        · exact hI.threads ht
        · exact hI.threads hv
      · exact fun u hu => hI.unstarted u (ne_of_unstarted hu).2
    | env =>
      refine ⟨turns, ?_, fun s hs => hI.stored s (Env.apply_sessions hs), hI.threads, hI.unstarted,
        hI.distinct, hI.order, hI.pairs⟩
      exact (congrArg (·.get s₀.agentID) Env.apply_agents).trans hI.agents

/-- The session holds the latest of what it held at first and of the turns that
were saved to it, among them the turn of every reply that returned without an error. -/
def KeepsTurns (id : String) (agent : WebAgent) (s₀ s : AISession) (σ : State) : Prop :=
  Alternating s.messages ∧ s.messages.length ≤ agent.maxStored ∧ ∃ turns : Turns,
    (turns.map (·.1)).Nodup ∧ (turns.map (·.1)).Sublist (savers id σ.log) ∧
    s.messages = latest agent.maxStored (s₀.messages ++ turns.flatMap (·.2)) ∧
    ∀ t request r, σ.result t = some (request, .ok r) → request.sessionID = id →
      ∃ user, user.role = .user ∧ user.text = trimSpace request.text ∧ (t, [user, r.message]) ∈ turns

/-- In every run of replies in which none saves over a turn it has not read, a
session keeps its turns. -/
theorem keepsTurns (hagent : w₀.agents.get s₀.agentID = some agent)
    (hs₀ : w₀.sessions.get id = some s₀) (halt : Alternating s₀.messages)
    (hlen : s₀.messages.length ≤ agent.maxStored)
    (h : (replies platform).Reach (fun σ l => unraced id σ l) (Pool.init w₀) σ) :
    ∀ s, σ.shared.sessions.get id = some s → KeepsTurns id agent s₀ s σ := by
  intro s hs
  obtain ⟨turns, hkept⟩ := kept hagent hs₀ hlen h
  have hmessages := (hkept.stored s hs).2
  have hturns : ∀ ts : Turns, (∀ turn ∈ ts, turn ∈ turns) → Alternating (ts.flatMap (·.2)) := by
    intro ts hts
    induction ts with
    | nil => trivial
    | cons turn ts ih =>
      obtain ⟨user, assistant, huser, hassistant, heq⟩ := hkept.pairs turn (hts _ List.mem_cons_self)
      rw [List.flatMap_cons, heq]
      exact ⟨huser, hassistant, ih fun turn hturn => hts turn (List.mem_cons_of_mem _ hturn)⟩
  refine ⟨?_, ?_, turns, hkept.distinct, hkept.order, hmessages, ?_⟩
  · rw [hmessages]
    exact (halt.append (hturns turns fun _ hturn => hturn)).latest agent.maxStored_even
  · rw [hmessages, history, length_latest]
    exact Nat.min_le_left _ _
  · intro t request r hres hid
    obtain ⟨l, b, hview, hreturns⟩ :=
      (h.conforming (reply_conforms platform) .init).result hres
    cases l with
    | saved x ok =>
      cases ok with
      | false => exact hreturns.elim
      | true =>
        obtain ⟨session, agent', user, hextends, htext⟩ := hreturns
        have hmem := hkept.threads hview rfl hid
        rw [hextends.latest_two] at hmem
        exact ⟨user, hextends.1, htext, hmem⟩
    | _ => exact hreturns.elim

end Runs

end Chat

/-! ## Two replies at once -/

namespace Sample

namespace Chat

open Stylme.Chat

def platform : Stylme.Chat.Platform := ⟨id, id, 3600 * second⟩

def agent : WebAgent := { Sample.agent with web := none }

def session : AISession where
  id := "session_1"
  accessTokenHash := "secret"
  userID := ""
  agentID := "agent_1"
  swarmID := ""
  status := "active"
  messages := []
  profileContext := []
  metadata := none
  expiresAt := 1
  createdAt := 0
  updatedAt := 0

def world : Stylme.Chat.World where
  clock := 0
  agents := ⟨[agent], by decide, by decide⟩
  sessions := ⟨[session], by decide, by decide⟩

theorem world_agent : world.agents.get session.agentID = some agent :=
  Collection.get_eq_some_iff.2 ⟨List.mem_cons_self, rfl⟩

theorem world_session : world.sessions.get "session_1" = some session :=
  Collection.get_eq_some_iff.2 ⟨List.mem_cons_self, rfl⟩

def request (text : String) : ReplyRequest := ⟨"session_1", "secret", text, ""⟩

/-- `n` commands of thread `t` in a row, none of them going wrong. -/
def execs (t n : ℕ) : List Stylme.Chat.Step := List.replicate n (.exec t {})

/-- Two replies, the second of which reads the session before the first saves it. -/
def overlap : List Stylme.Chat.Step :=
  [.spawn 0 (request "kurta"), .spawn 1 (request "saree")] ++ execs 0 1 ++ execs 1 1 ++
    execs 0 7 ++ execs 1 7

/-- The first reply has returned, and the session holds two messages and none of its text. -/
def lost (σ : Stylme.Chat.State) : Bool :=
  (match σ.result 0 with
    | some (request, .ok _) => request.sessionID = "session_1" ∧ trimSpace request.text = "kurta"
    | _ => false) &&
  (match σ.shared.sessions.get "session_1" with
    | some s => s.messages.length = 2 ∧ s.messages.all (·.text ≠ "kurta")
    | none => false)

/-- The same two replies, one after the other. -/
def inTurn : List Stylme.Chat.Step :=
  [.spawn 0 (request "kurta"), .spawn 1 (request "saree")] ++ execs 0 8 ++ execs 1 8

end Chat

end Sample

namespace Chat

/-- Both replies return, and the session holds what it should. -/
theorem keepsTurns_sample :
    ∃ σ, (replies Sample.Chat.platform).Reach (fun σ l => unraced "session_1" σ l)
        (Pool.init Sample.Chat.world) σ ∧
      (σ.result 0).isSome ∧ (σ.result 1).isSome ∧
      ∀ s, σ.shared.sessions.get "session_1" = some s →
        KeepsTurns "session_1" Sample.Chat.agent Sample.Chat.session s σ := by
  have hrun : ((replies Sample.Chat.platform).runWhere (fun σ l => unraced "session_1" σ l)
      Sample.Chat.inTurn (Pool.init Sample.Chat.world)).any
        fun σ => (σ.result 0).isSome && (σ.result 1).isSome := by
    decide +kernel
  obtain ⟨σ, hreach, hdone⟩ := System.Reach.exists_of_any hrun
  simp only [Bool.and_eq_true] at hdone
  exact ⟨σ, hreach, hdone.1, hdone.2,
    keepsTurns Sample.Chat.world_agent Sample.Chat.world_session trivial (Nat.zero_le _) hreach⟩

/-- The second reply saves over the turn of the first. -/
theorem not_keepsTurns :
    ¬ ∀ (w₀ : World) (agent : WebAgent) (s₀ : AISession) (id : String) (σ : State),
      w₀.agents.get s₀.agentID = some agent → w₀.sessions.get id = some s₀ →
      Alternating s₀.messages → s₀.messages.length ≤ agent.maxStored →
      (replies Sample.Chat.platform).Reach (fun _ _ => True) (Pool.init w₀) σ →
      ∀ s, σ.shared.sessions.get id = some s → KeepsTurns id agent s₀ s σ := by
  intro h
  have hrun : ((replies Sample.Chat.platform).runWhere (fun _ _ => True)
      Sample.Chat.overlap (Pool.init Sample.Chat.world)).any Sample.Chat.lost := by
    decide +kernel
  obtain ⟨σ, hreach, hdone⟩ := System.Reach.exists_of_any hrun
  rw [Sample.Chat.lost, Bool.and_eq_true] at hdone
  obtain ⟨hok, hstored⟩ := hdone
  split at hok <;> [skip; cases hok]
  rename_i request r hres
  split at hstored <;> [skip; cases hstored]
  rename_i s hs
  simp only [decide_eq_true_eq] at hok hstored
  obtain ⟨-, -, turns, -, -, hmessages, hturns⟩ := h Sample.Chat.world Sample.Chat.agent
    Sample.Chat.session "session_1" σ Sample.Chat.world_agent Sample.Chat.world_session trivial
    (Nat.zero_le _) hreach s hs
  obtain ⟨user, -, htext, hmem⟩ := hturns 0 request r hres hok.1
  have hmem : user ∈ Sample.Chat.session.messages ++ turns.flatMap (·.2) :=
    List.mem_append_right _ (List.mem_flatMap.2 ⟨_, hmem, List.mem_cons_self⟩)
  -- two messages are fewer than the bound, so nothing was pushed out
  have hlen := congrArg List.length hmessages
  rw [length_latest, hstored.1] at hlen
  have hbound : Sample.Chat.agent.maxStored = 24 := rfl
  rw [latest_of_le (by omega)] at hmessages
  rw [← hmessages] at hmem
  exact of_decide_eq_true (List.all_eq_true.1 hstored.2 user hmem) (htext.trans hok.2)

end Chat

end Stylme
