import ExchangeLoad.Http.Message
import ExchangeLoad.Identity

/-!
The bank's inner side: identities are registered and credit is deposited, both by documents.
No cookies are kept.
-/

namespace ExchangeLoad.Http

/-- What is asked of the bank. -/
inductive BankRequest where
  | register (id : Identity)
  | deposit (id : Identity) (amount : Int)
deriving DecidableEq, Repr, Inhabited

namespace BankRequest

/-- The path that a request goes to. -/
def path : BankRequest → String
  | register _ => "/register"
  | deposit .. => "/add_credit"

/-- The document that a request carries. -/
def document : BankRequest → Json
  | register id => .obj [("bank_id", .str id.token)]
  | deposit id amount => .obj [("bank_id", .str id.token), ("price", .int amount)]

/-- The message that a request is sent as. -/
def message (endpoint : String) (r : BankRequest) : Message :=
  ⟨"POST", endpoint ++ r.path, some "application/json", [], r.document.compact⟩

/-- What a delivery means for a request. -/
def verdict (r : BankRequest) (d : Delivery) : Except Fault Unit :=
  match d.fate with
  | .answered status _ body =>
    if isSuccess status then .ok () else .error (statusFault "Bank " r.path status body.text)
  | _ => .error (.plain ("Bank request to " ++ r.path ++ " failed"))

/-- Asks the bank: `send` tells how the message fares. -/
def ask (endpoint : String) (r : BankRequest) (send : Message → Delivery) : Except Fault Unit :=
  r.verdict (send (r.message endpoint))

end BankRequest

end ExchangeLoad.Http
