import Brokerage.Proofs.Registry.Connecting
import Mathlib.Data.List.Induction

namespace Brokerage.Registry

variable {τ : Type}

/-- What can be done to a registry. A client that is made goes through a channel
    of its own, to a server of its own. -/
inductive Action (τ : Type) where
  | getOrInit (settings : Settings) (makeChannel : Settings → Except ClientError τ) (answers : Answers ClientError)
  | get (id : UInt64)
  | remove (id : UInt64)
  | clear

/-- How an action ends, the registry afterwards, what the factory was asked for
    and what was sent. -/
structure Report (τ : Type) where
  outcome : Except ClientError (Option (Client τ))
  registry : Registry τ
  asked : List Settings
  sent : List Call

def perform (r : Registry τ) : Action τ → Report τ
  | .getOrInit settings makeChannel answers =>
    let (outcome, traced, sent) := getOrInitInPlace settings makeChannel answers ⟨r, []⟩ []
    ⟨outcome.map some, traced.registry, traced.asked, sent⟩
  | .get id => ⟨.ok (r.get? id), r, [], []⟩
  | .remove id => ⟨.ok (r.get? id), r.remove id, [], []⟩
  | .clear => ⟨.ok none, empty, [], []⟩

/-- The registry after a run of actions on the empty one. -/
def after (actions : List (Action τ)) : Registry τ :=
  actions.foldl (fun r a => (r.perform a).registry) empty

private theorem after_concat (actions : List (Action τ)) (a : Action τ) :
    after (actions ++ [a]) = ((after actions).perform a).registry := by
  rw [after, List.foldl_append]
  rfl

namespace Action

/-- The action gets or makes the client of a broker. -/
def Connects (a : Action τ) (r : Registry τ) (id : UInt64) : Prop :=
  ∃ settings makeChannel answers client, a = .getOrInit settings makeChannel answers ∧ settings.brokerId = id ∧
    (r.perform a).outcome = .ok (some client)

/-- The action takes out the client of a broker. -/
def Drops (id : UInt64) : Action τ → Prop
  | remove removed => removed = id
  | clear => True
  | _ => False

/-- The action makes a client of a broker: with settings that pass the check,
    over the channel that the factory gives for them, and with the tables that
    the server sends in answer to the two questions. -/
structure Makes (a : Action τ) (id : UInt64) (client : Client τ) : Prop where
  brokerId : client.settings.brokerId = id
  valid : client.settings.validate = .ok ()
  loaded : client.loaded = true
  origin : ∃ makeChannel answers, a = .getOrInit client.settings makeChannel answers ∧
    makeChannel client.settings = .ok client.channel ∧
    Client.LoadRun answers [] (.ok client.tables) [Client.symbolsQuestion, Client.currenciesQuestion]

end Action

/-- An action of the run was such, on the registry that it found, and none since
    has taken out the client of the broker. -/
def Since (id : UInt64) (P : Registry τ → Action τ → Prop) (actions : List (Action τ)) : Prop :=
  ∃ before a later, actions = before ++ a :: later ∧ P (after before) a ∧ ∀ b ∈ later, ¬ b.Drops id

/-- The broker has been connected with success, and its client not taken out
    since. Where this holds of some connection, it holds of the last one. -/
def Connected (actions : List (Action τ)) (id : UInt64) : Prop :=
  Since id (fun r a => a.Connects r id) actions

/-- The client was made for the broker when there was none, and not taken out
    since. -/
def Made (actions : List (Action τ)) (id : UInt64) (client : Client τ) : Prop :=
  Since id (fun r a => r.get? id = none ∧ a.Makes id client) actions

section

variable (r : Registry τ) (settings : Settings) (makeChannel : Settings → Except ClientError τ)
  (answers : Answers ClientError)

/-- As an action, getting or making a client goes in one of the ways listed. -/
theorem exists_perform_getOrInit :
    ∃ outcome next asked sent, GetOrInitRun r settings makeChannel answers [] outcome next asked sent ∧
      r.perform (.getOrInit settings makeChannel answers) = ⟨outcome.map some, next, asked, sent⟩ := by
  obtain ⟨outcome, next, asked, sent, hrun⟩ := exists_getOrInitRun r settings makeChannel answers []
  refine ⟨outcome, next, asked, sent, hrun, ?_⟩
  rw [perform, hrun.inPlace_eq []]
  rfl

end

section

variable {r next : Registry τ} {settings : Settings} {makeChannel : Settings → Except ClientError τ}
  {answers : Answers ClientError} {sent : List Call} {outcome : Except ClientError (Client τ)} {asked : List Settings}
  {client : Client τ} {id : UInt64} {actions : List (Action τ)} {a : Action τ}

/-- Where the broker had no client, the one that is the outcome was made by the
    action. -/
theorem GetOrInitRun.makes (h : GetOrInitRun r settings makeChannel answers [] (.ok client) next asked sent)
    (hnone : r.get? settings.brokerId = none) :
    (Action.getOrInit settings makeChannel answers).Makes settings.brokerId client := by
  cases h with
  | cached hget => cases hnone.symm.trans hget
  | added hnone hvalid hchannel hload hclient =>
    subst hclient
    cases hload with
    | loaded hsymbols hcurrencies =>
      exact ⟨rfl, hvalid, rfl, makeChannel, answers, rfl, hchannel, .loaded hsymbols hcurrencies⟩

/-- An action connects a broker exactly if it gets or makes that broker's client
    with success. -/
theorem connects_getOrInit_iff :
    (Action.getOrInit settings makeChannel answers).Connects r id ↔
      settings.brokerId = id ∧
        ∃ client, (r.perform (.getOrInit settings makeChannel answers)).outcome = .ok (some client) := by
  constructor
  · rintro ⟨settings, makeChannel, answers, client, haction, hid, houtcome⟩
    cases haction
    exact ⟨hid, client, houtcome⟩
  · rintro ⟨hid, client, houtcome⟩
    exact ⟨settings, makeChannel, answers, client, rfl, hid, houtcome⟩

private theorem not_connects_of_drops (h : a.Drops id) : ¬ a.Connects r id := by
  rintro ⟨settings, makeChannel, answers, client, rfl, -, -⟩
  exact h

/-- A broker whose client is taken out has none, whether it had one or not. -/
theorem get?_perform_of_drops (h : a.Drops id) : (r.perform a).registry.get? id = none := by
  cases a with
  | remove removed =>
    cases h
    exact (get?_remove r id id).trans (if_pos rfl)
  | clear => exact get?_empty id
  | getOrInit | get => exact h.elim

/-- An action that does not take out the client of a broker leaves it there, or
    makes one where there was none. -/
theorem get?_perform_of_not_drops (h : ¬ a.Drops id) :
    ((r.perform a).registry.get? id = r.get? id ∧ (a.Connects r id → ∃ client, r.get? id = some client)) ∨
    (r.get? id = none ∧ a.Connects r id ∧
      ∃ client, a.Makes id client ∧ (r.perform a).registry.get? id = some client) := by
  cases a with
  | getOrInit settings makeChannel answers =>
    obtain ⟨outcome, next, asked, sent, hrun, hperform⟩ := exists_perform_getOrInit r settings makeChannel answers
    have hget := hrun.get?_eq id
    rw [connects_getOrInit_iff, hperform]
    by_cases hid : settings.brokerId = id
    · subst hid
      rw [if_pos rfl] at hget
      cases outcome with
      | error e =>
        have hsame := hrun.of_error
        refine .inl ⟨congrArg (Registry.get? · _) hsame, ?_⟩
        rintro ⟨-, client, houtcome⟩
        cases houtcome
      | ok client =>
        cases hcached : r.get? settings.brokerId with
        | some cached =>
          obtain ⟨-, hsame, -⟩ := hrun.of_cached hcached
          exact .inl ⟨by rw [hsame, hcached], fun _ => ⟨cached, rfl⟩⟩
        | none => exact .inr ⟨rfl, ⟨rfl, client, rfl⟩, client, hrun.makes hcached, hget⟩
    · rw [if_neg (Ne.symm hid)] at hget
      exact .inl ⟨hget, fun hconnects => absurd hconnects.1 hid⟩
  | get => exact .inl ⟨rfl, nofun⟩
  | remove removed => exact .inl ⟨(get?_remove r removed id).trans (if_neg (Ne.symm h)), nofun⟩
  | clear => exact absurd trivial h

/-- No action lists a broker twice, given that none is so far. A client that is
    inserted takes the place of any other of its broker. -/
theorem nodup_brokers_perform (h : r.brokers.Nodup) (a : Action τ) : (r.perform a).registry.brokers.Nodup := by
  cases a with
  | getOrInit settings makeChannel answers =>
    obtain ⟨outcome, next, asked, sent, hrun, hperform⟩ := exists_perform_getOrInit r settings makeChannel answers
    rw [hperform]
    cases hrun with
    | added => exact nodup_brokers_insert h _ _
    | _ => exact h
  | get => exact h
  | remove removed => exact nodup_brokers_remove h removed
  | clear => exact List.nodup_nil

private theorem not_since_nil {P : Registry τ → Action τ → Prop} : ¬ Since id P [] := by
  rintro ⟨before, a, later, hactions, -⟩
  cases before <;> cases hactions

/-- What has been since some action of a run and one more is the case from the
    last one on, or had been before it and is not undone by it. This is the step
    of the induction over runs. -/
theorem since_concat_iff {P : Registry τ → Action τ → Prop} :
    Since id P (actions ++ [a]) ↔ P (after actions) a ∨ Since id P actions ∧ ¬ a.Drops id := by
  constructor
  · rintro ⟨before, b, later, hactions, hb, hlater⟩
    -- The last action is the one in question, or one of those that came after it.
    obtain rfl | ⟨others, last, rfl⟩ := List.eq_nil_or_concat later
    · obtain ⟨rfl, hlast⟩ := List.append_inj' hactions rfl
      cases hlast
      exact .inl hb
    · have hconcat : actions ++ [a] = (before ++ b :: others) ++ [last] := by simpa using hactions
      obtain ⟨rfl, hlast⟩ := List.append_inj' hconcat rfl
      cases hlast
      have hothers : ∀ c ∈ others, ¬ c.Drops id := fun c hc => hlater c (by simp [hc])
      exact .inr ⟨⟨before, b, others, rfl, hb, hothers⟩, hlater a (by simp)⟩
  · rintro (ha | ⟨⟨before, b, later, rfl, hb, hlater⟩, hkept⟩)
    · exact ⟨actions, a, [], rfl, ha, nofun⟩
    · refine ⟨before, b, later ++ [a], by simp, hb, ?_⟩
      intro c hc
      rcases List.mem_append.mp hc with hc | hc
      · exact hlater c hc
      · cases List.mem_singleton.mp hc
        exact hkept

private theorem Made.exists_makes (h : Made actions id client) : ∃ a ∈ actions, a.Makes id client := by
  obtain ⟨before, a, later, rfl, ⟨-, hmakes⟩, -⟩ := h
  exact ⟨a, by simp, hmakes⟩

end

section

variable (actions : List (Action τ)) (id : UInt64)

/-- No run lists a broker twice. -/
theorem nodup_brokers_after : (after actions).brokers.Nodup := by
  induction actions using List.reverseRecOn with
  | nil => exact List.nodup_nil
  | append_singleton actions a ih =>
    rw [after_concat]
    exact nodup_brokers_perform ih a

/-- A broker has a client in the registry when its last connection still
    stands. -/
theorem exists_get?_after_iff : (∃ client, (after actions).get? id = some client) ↔ Connected actions id := by
  induction actions using List.reverseRecOn with
  | nil => exact iff_of_false nofun not_since_nil
  | append_singleton actions a ih =>
    rw [Connected, since_concat_iff, ← Connected, ← ih, after_concat]
    by_cases hdrops : a.Drops id
    · rw [get?_perform_of_drops hdrops]
      have hconnects : ¬ a.Connects (after actions) id := not_connects_of_drops hdrops
      simp [hdrops, hconnects]
    · obtain ⟨hsame, hconnects⟩ | ⟨-, hconnects, client, -, hget⟩ :=
        get?_perform_of_not_drops (r := after actions) hdrops
      · rw [hsame]
        exact ⟨fun hclient => .inr ⟨hclient, hdrops⟩, fun h => h.elim hconnects And.left⟩
      · exact iff_of_true ⟨client, hget⟩ (.inl hconnects)

/-- Whatever client is in the registry was made for its broker in the course of
    the run, when there was none, and not taken out since. -/
theorem made_of_get?_after {client : Client τ} (h : (after actions).get? id = some client) :
    Made actions id client := by
  induction actions using List.reverseRecOn with
  | nil => cases h
  | append_singleton actions a ih =>
    rw [after_concat] at h
    rw [Made, since_concat_iff]
    by_cases hdrops : a.Drops id
    · cases (get?_perform_of_drops hdrops).symm.trans h
    · obtain ⟨hsame, -⟩ | ⟨hnone, -, made, hmakes, hget⟩ :=
        get?_perform_of_not_drops (r := after actions) hdrops
      · exact .inr ⟨ih (hsame ▸ h), hdrops⟩
      · cases hget.symm.trans h
        exact .inl ⟨hnone, hmakes⟩

end

/-- The registry after any run: each client in it was made for its broker with
    settings that pass the check and has both tables; there are as many clients
    as brokers whose connection stands; getting the client of such a broker asks
    and sends nothing; failing to make one changes nothing; taking one out
    leaves all others. Every action may come with a factory and a server of its
    own, so nothing is asked of either. -/
theorem cacheInvariant_after (actions : List (Action τ)) :
    let r := after actions
    (∀ id client, r.get? id = some client →
      client.settings.brokerId = id ∧ client.settings.validate = .ok () ∧ client.loaded = true ∧
      Made actions id client) ∧
    (∃ ids : List UInt64, ids.Nodup ∧ (∀ id, id ∈ ids ↔ Connected actions id) ∧ r.count = ids.length) ∧
    (∀ settings makeChannel answers, ∃ outcome next asked sent,
      r.perform (.getOrInit settings makeChannel answers) = ⟨outcome.map some, next, asked, sent⟩ ∧
      (r.getOrInit settings makeChannel).run answers [] = (outcome.map fun client => (client, next), sent) ∧
      GetOrInitRun r settings makeChannel answers [] outcome next asked sent ∧
      (∀ client, r.get? settings.brokerId = some client → outcome = .ok client ∧ next = r ∧ asked = [] ∧ sent = []) ∧
      (∀ e, outcome = .error e → next = r)) ∧
    (∀ id, ∃ next, r.perform (.remove id) = ⟨.ok (r.get? id), next, [], []⟩ ∧ next.get? id = none ∧
      ∀ other, other ≠ id → next.get? other = r.get? other) := by
  intro r
  refine ⟨?clients, ?count, ?getOrInit, ?remove⟩
  case clients =>
    intro id client hget
    have hmade : Made actions id client := made_of_get?_after actions id hget
    obtain ⟨a, -, hmakes⟩ := hmade.exists_makes
    exact ⟨hmakes.brokerId, hmakes.valid, hmakes.loaded, hmade⟩
  case count =>
    refine ⟨r.brokers, nodup_brokers_after actions, ?_, r.length_brokers.symm⟩
    intro id
    exact mem_brokers_iff.trans (exists_get?_after_iff actions id)
  case getOrInit =>
    intro settings makeChannel answers
    obtain ⟨outcome, next, asked, sent, hrun, hperform⟩ := exists_perform_getOrInit r settings makeChannel answers
    refine ⟨outcome, next, asked, sent, hperform, hrun.run_getOrInit, hrun, fun client => hrun.of_cached, ?_⟩
    rintro e rfl
    exact hrun.of_error
  case remove =>
    intro id
    refine ⟨r.remove id, rfl, (get?_remove r id id).trans (if_pos rfl), ?_⟩
    intro other hother
    exact (get?_remove r id other).trans (if_neg hother)

example :
    let settings := Settings.new "127.0.0.1" 8001 1 "pw"
    let connect : Action Unit := .getOrInit settings (fun _ => .ok ()) fun _ => .ok (.array [])
    let refused : Action Unit := .getOrInit settings (fun _ => .ok ()) fun _ => .error .undecodable
    (after [connect, refused, .remove 1, refused]).count = 0 ∧ (after [connect, refused, connect]).count = 1 := by
  decide

end Brokerage.Registry
