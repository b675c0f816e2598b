import Brokerage.Client.Registry
import Brokerage.Proofs.Client.Loading
import Brokerage.Proofs.Registry.Clients

namespace Brokerage.Registry

variable {τ : Type}

/-- What factories of channels have been asked for so far, next to the
    registry. -/
structure Traced (τ : Type) where
  registry : Registry τ
  asked : List Settings

/-- Getting or making a client as it changes the registry in place, with a note
    of what the factory is asked for. -/
def getOrInitInPlace (settings : Settings) (makeChannel : Settings → Except ClientError τ)
    (answers : Answers ClientError) : InPlace (Traced τ) (Client τ) := do
  let traced ← InPlace.current
  match traced.registry.get? settings.brokerId with
  | some client => return client
  | none =>
    InPlace.perform answers (Dialogue.ofExcept settings.validate)
    InPlace.change fun t => { t with asked := t.asked ++ [settings] }
    let channel ← InPlace.perform answers (Dialogue.ofExcept (makeChannel settings))
    let client ← InPlace.within (Client.create settings channel) (Client.loadInPlace answers)
    InPlace.change fun t => { t with registry := t.registry.insert settings.brokerId client }
    return client

/-- The ways in which getting or making a client can go, over a channel that the
    calls `made` have gone through: how it ends, the registry afterwards, what
    the factory was asked for and what was sent. -/
inductive GetOrInitRun (r : Registry τ) (settings : Settings) (makeChannel : Settings → Except ClientError τ)
    (answers : Answers ClientError) (made : List Call) :
    Except ClientError (Client τ) → Registry τ → List Settings → List Call → Prop where
  | cached {client : Client τ} (hget : r.get? settings.brokerId = some client) :
    GetOrInitRun r settings makeChannel answers made (.ok client) r [] []
  | invalid {e : ClientError} (hget : r.get? settings.brokerId = none) (hvalid : settings.validate = .error e) :
    GetOrInitRun r settings makeChannel answers made (.error e) r [] []
  | noChannel {e : ClientError} (hget : r.get? settings.brokerId = none) (hvalid : settings.validate = .ok ())
      (hchannel : makeChannel settings = .error e) :
    GetOrInitRun r settings makeChannel answers made (.error e) r [settings] []
  | notLoaded {channel : τ} {e : ClientError} {sent : List Call} (hget : r.get? settings.brokerId = none)
      (hvalid : settings.validate = .ok ()) (hchannel : makeChannel settings = .ok channel)
      (hload : Client.LoadRun answers made (.error e) sent) :
    GetOrInitRun r settings makeChannel answers made (.error e) r [settings] sent
  | added {channel : τ} {tables : Tables} {client : Client τ} {sent : List Call}
      (hget : r.get? settings.brokerId = none) (hvalid : settings.validate = .ok ())
      (hchannel : makeChannel settings = .ok channel) (hload : Client.LoadRun answers made (.ok tables) sent)
      (hclient : client = { settings, channel, tables, loaded := true }) :
    GetOrInitRun r settings makeChannel answers made (.ok client) (r.insert settings.brokerId client) [settings] sent

section

variable (r : Registry τ) (settings : Settings) (makeChannel : Settings → Except ClientError τ)
  (answers : Answers ClientError) (made : List Call)

/-- Getting or making a client can always go in one of the ways listed: the
    broker has a client or not, and each step of making one succeeds or
    fails. -/
theorem exists_getOrInitRun :
    ∃ outcome next asked sent, GetOrInitRun r settings makeChannel answers made outcome next asked sent := by
  cases hget : r.get? settings.brokerId with
  | some client => exact ⟨_, _, _, _, .cached hget⟩
  | none =>
    cases hvalid : settings.validate with
    | error e => exact ⟨_, _, _, _, .invalid hget hvalid⟩
    | ok =>
      cases hchannel : makeChannel settings with
      | error e => exact ⟨_, _, _, _, .noChannel hget hvalid hchannel⟩
      | ok channel =>
        obtain ⟨outcome, sent, hload⟩ := Client.exists_loadRun answers made
        cases outcome with
        | error e => exact ⟨_, _, _, _, .notLoaded hget hvalid hchannel hload⟩
        | ok tables => exact ⟨_, _, _, _, .added hget hvalid hchannel hload rfl⟩

end

section

variable {r next : Registry τ} {settings : Settings} {makeChannel : Settings → Except ClientError τ}
  {answers : Answers ClientError} {made sent : List Call} {outcome : Except ClientError (Client τ)}
  {asked : List Settings}

/-- Each way is how it goes in place, with what the factory was asked for noted
    behind what it had been asked for before. -/
theorem GetOrInitRun.inPlace_eq (h : GetOrInitRun r settings makeChannel answers made outcome next asked sent)
    (before : List Settings) :
    getOrInitInPlace settings makeChannel answers ⟨r, before⟩ made =
      (outcome, ⟨next, before ++ asked⟩, made ++ sent) := by
  rw [getOrInitInPlace, InPlace.bind_apply, InPlace.current_apply]
  cases h with
  | cached hget =>
    simp only [hget, InPlace.pure_apply, List.append_nil]
  | invalid hget hvalid =>
    simp only [hget, InPlace.bind_apply, InPlace.perform_apply, Dialogue.run_ofExcept, hvalid, List.append_nil]
  | noChannel hget hvalid hchannel =>
    simp only [hget, InPlace.bind_apply, InPlace.perform_apply, Dialogue.run_ofExcept, hvalid, InPlace.change_apply,
      hchannel, List.append_nil]
  | @notLoaded channel e sent hget hvalid hchannel hload =>
    have hinit := hload.loadInPlace_eq (c := Client.create settings channel) rfl
    simp only [hget, InPlace.bind_apply, InPlace.perform_apply, Dialogue.run_ofExcept, hvalid, InPlace.change_apply,
      hchannel, InPlace.within_apply, hinit]
    rfl
  | @added channel tables client sent hget hvalid hchannel hload hclient =>
    have hinit := hload.loadInPlace_eq (c := Client.create settings channel) rfl
    rw [hclient]
    simp only [hget, InPlace.bind_apply, InPlace.perform_apply, Dialogue.run_ofExcept, hvalid, InPlace.change_apply,
      hchannel, InPlace.within_apply, hinit]
    rfl

/-- `getOrInit` results in the client and the registry that getting it in place
    leaves, and sends the same. What is in place keeps every change when a later
    step fails; that nothing has to be undone is a fact about the order of its
    steps. -/
theorem run_getOrInit_eq_inPlace (r : Registry τ) (settings : Settings) (makeChannel : Settings → Except ClientError τ)
    (answers : Answers ClientError) (made : List Call) (before : List Settings) :
    (r.getOrInit settings makeChannel).run answers made =
      let (outcome, traced, made) := getOrInitInPlace settings makeChannel answers ⟨r, before⟩ made
      (outcome.map fun client => (client, traced.registry), made) := by
  rw [getOrInit, getOrInitInPlace, InPlace.bind_apply, InPlace.current_apply]
  cases hget : r.get? settings.brokerId with
  | some client =>
    simp only [hget]
    rfl
  | none =>
    simp only [hget, Dialogue.run_bind, Dialogue.run_ofExcept, InPlace.bind_apply, InPlace.perform_apply]
    cases settings.validate with
    | error e => rfl
    | ok =>
      simp only [InPlace.change_apply]
      cases makeChannel settings with
      | error e => rfl
      | ok channel =>
        simp only [InPlace.within_apply, Client.run_init_eq_loadInPlace]
        obtain ⟨outcome, client, made⟩ := Client.loadInPlace answers (Client.create settings channel) made
        cases outcome <;> rfl

/-- Each way is how `getOrInit` runs: with the client that is there and no call,
    or with a new one that has been loaded, or with the error that kept it from
    being made or loaded. -/
theorem GetOrInitRun.run_getOrInit (h : GetOrInitRun r settings makeChannel answers made outcome next asked sent) :
    (r.getOrInit settings makeChannel).run answers made = (outcome.map fun client => (client, next), made ++ sent) := by
  rw [run_getOrInit_eq_inPlace r settings makeChannel answers made [], h.inPlace_eq]

/-- Where the broker has a client, that client is the outcome, the factory is
    not asked and nothing is sent. -/
theorem GetOrInitRun.of_cached (h : GetOrInitRun r settings makeChannel answers made outcome next asked sent)
    {client : Client τ} (hget : r.get? settings.brokerId = some client) :
    outcome = .ok client ∧ next = r ∧ asked = [] ∧ sent = [] := by
  cases h with
  | cached hcached =>
    cases hcached.symm.trans hget
    exact ⟨rfl, rfl, rfl, rfl⟩
  | invalid hnone | noChannel hnone | notLoaded hnone | added hnone => cases hnone.symm.trans hget

/-- A failure leaves the registry as it was. A client is put into it only after
    it has been loaded. -/
theorem GetOrInitRun.of_error {e : ClientError}
    (h : GetOrInitRun r settings makeChannel answers made (.error e) next asked sent) : next = r := by
  cases h <;> rfl

/-- What getting or making a client does to the look-up of each broker: its own
    broker has the client that is the outcome, none if it failed, and all others
    are left. -/
theorem GetOrInitRun.get?_eq (h : GetOrInitRun r settings makeChannel answers made outcome next asked sent)
    (id : UInt64) :
    next.get? id = if id = settings.brokerId then outcome.toOption else r.get? id := by
  by_cases hid : id = settings.brokerId
  · rw [if_pos hid, hid]
    cases h with
    | cached hget => exact hget
    | invalid hnone | noChannel hnone | notLoaded hnone => exact hnone
    | added => rw [get?_insert, if_pos rfl]; rfl
  · rw [if_neg hid]
    cases h with
    | added => rw [get?_insert, if_neg hid]
    | _ => rfl

end

end Brokerage.Registry
