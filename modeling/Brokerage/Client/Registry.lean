import Brokerage.Client.Basic

namespace Brokerage

/-- Loaded clients under their brokers' ids, one for each broker. -/
structure Registry (τ : Type) where
  clients : List (UInt64 × Client τ)
deriving DecidableEq

namespace Registry

variable {τ : Type}

/-- No clients. -/
def empty : Registry τ := ⟨[]⟩

/-- The client of a broker. -/
def get? (r : Registry τ) (brokerId : UInt64) : Option (Client τ) :=
  r.clients.lookup brokerId

/-- The registry without the client of a broker. -/
def remove (r : Registry τ) (brokerId : UInt64) : Registry τ :=
  ⟨r.clients.filter fun (id, _) => id != brokerId⟩

/-- The registry with a client under a broker's id, in place of any other
    there. -/
def insert (r : Registry τ) (brokerId : UInt64) (client : Client τ) : Registry τ :=
  ⟨(r.remove brokerId).clients ++ [(brokerId, client)]⟩

/-- How many clients there are. -/
def count (r : Registry τ) : Nat :=
  r.clients.length

/-- The client of the broker that the settings name: the one that is there, else
    a new one over a channel made for it, its tables loaded. Only a client that
    has been loaded is put into the registry. -/
def getOrInit (r : Registry τ) (settings : Settings) (makeChannel : Settings → Except ClientError τ) :
    Operation (Client τ × Registry τ) :=
  match r.get? settings.brokerId with
  | some client => .result (client, r)
  | none => do
    Dialogue.ofExcept settings.validate
    let channel ← Dialogue.ofExcept (makeChannel settings)
    let client ← (Client.create settings channel).init
    return (client, r.insert settings.brokerId client)

end Registry

end Brokerage
