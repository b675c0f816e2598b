import Brokerage.Client.Basic
import Brokerage.Market.Order

namespace Brokerage.Client

variable {τ : Type}

/-- Changes to an order with its ticket among them, in place of a ticket that
    they name themselves. -/
def withTicket (ticket : Int64) (changes : List (String × Json)) : Json :=
  .object (Json.insertMember "Ticket" (.ofInt64 ticket) changes)

/-- Opens an order. This and the operations below are one call each. -/
def orderOpen (_ : Client τ) (order : OrderOpen) : Operation Json :=
  Operation.callWith "AdminOpenOrder" order.toJson

/-- Changes an order. -/
def orderModify (_ : Client τ) (ticket : Int64) (changes : List (String × Json)) : Operation Json :=
  Dialogue.call "AdminModifyOrder" (withTicket ticket changes)

/-- Closes an order, all of it or what the changes say. -/
def orderClose (_ : Client τ) (ticket : Int64) (changes : List (String × Json)) : Operation Json :=
  Dialogue.call "AdminCloseOrder" (withTicket ticket changes)

/-- Deletes an order. -/
def orderDelete (_ : Client τ) (ticket : Int64) : Operation Json :=
  Dialogue.call "AdminDeleteOrder" (.object [("Ticket", .ofInt64 ticket)])

end Brokerage.Client
