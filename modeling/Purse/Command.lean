import Purse.Decimal.Numeral
import Purse.Service.Request

/-!
# Commands

What an operator can have done: each command has a name and operands. A command other than the one
that creates the tables is a request to the service.
-/

namespace Purse

/-- How an operand is read. -/
inductive OperandKind where
  /-- An identifier in any spelling. -/
  | identifier
  /-- Any text. -/
  | text
  /-- A number. -/
  | number
deriving DecidableEq, Repr

/-- Whether a text can be read as such an operand. -/
def OperandKind.accepts (kind : OperandKind) (s : String) : Bool :=
  match kind with
  | identifier => (Uuid.ofText? s).isSome
  | text => true
  | number => (Numeral.readDouble? s).isSome

/-- An operand, as it is explained to the operator. -/
structure Operand where
  name : String
  about : String
  kind : OperandKind

/-- The name of a command. -/
inductive Verb where
  | migrate
  | create
  | balance
  | deposit
  | withdraw
  | exchange
  | rates
deriving DecidableEq, Repr

namespace Verb

/-- Every command, in the order in which they are listed. -/
def all : List Verb := [migrate, create, balance, deposit, withdraw, exchange, rates]

/-- The name as it is typed. -/
def name : Verb → String
  | migrate => "migrate"
  | create => "create"
  | balance => "balance"
  | deposit => "deposit"
  | withdraw => "withdraw"
  | exchange => "exchange"
  | rates => "rates"

/-- The command with this name. -/
def ofName? (s : String) : Option Verb := all.find? fun (v : Verb) => v.name = s

/-- What the command does. -/
def about : Verb → String
  | migrate => "Create the database schema"
  | create => "Create the wallet for a user"
  | balance => "Show a user's balances"
  | deposit => "Credit an amount"
  | withdraw => "Debit an amount"
  | exchange => "Convert an amount between currencies"
  | rates => "List exchange rates"

/-- The operands, in order. -/
def operands : Verb → List Operand
  | migrate | rates => []
  | create | balance => [user]
  | deposit | withdraw =>
    [user, ⟨"CURRENCY", "Currency symbol (USD, RUB, EUR)", .text⟩, ⟨"AMOUNT", "Amount in major units", .number⟩]
  | exchange =>
    [user, ⟨"FROM", "Currency sold", .text⟩, ⟨"TO", "Currency bought", .text⟩,
      ⟨"AMOUNT", "Amount of `from` in major units", .number⟩]
where
  /-- The user whose wallet the command is about. -/
  user : Operand := ⟨"USER", "User ID", .identifier⟩

/-- Whether some texts can be read as the first operands. -/
def accepts (v : Verb) (given : List String) : Bool :=
  given.length ≤ v.operands.length && (v.operands.zip given).all fun (o, s) => o.kind.accepts s

end Verb

/-- A command with its operands. -/
inductive Command where
  /-- Creating the tables. -/
  | migrate
  /-- Asking the service. -/
  | ask (request : Request)

namespace Command

/-- The command with a name and operands, if these are the operands that it takes. -/
def ofOperands? : Verb → List String → Option Command
  | .migrate, [] => some migrate
  | .create, [user] => do pure (ask (.create (← Uuid.ofText? user)))
  | .balance, [user] => do pure (ask (.view (← Uuid.ofText? user)))
  | .deposit, [user, currency, amount] => do
    pure (ask (.deposit (← Uuid.ofText? user) currency (← Numeral.readDouble? amount)))
  | .withdraw, [user, currency, amount] => do
    pure (ask (.withdraw (← Uuid.ofText? user) currency (← Numeral.readDouble? amount)))
  | .exchange, [user, sold, bought, amount] => do
    pure (ask (.exchange (← Uuid.ofText? user) sold bought (← Numeral.readDouble? amount)))
  | .rates, [] => some (ask .listing)
  | _, _ => none

end Command

end Purse
