import TapeCalc.Token
import TapeCalc.Text.Uppercase

/-!
# Spellings of lexemes

Operators, functions and the circle constant have fixed spellings.  Up to two names
for the variables stand beside them.  At a place in the text the longest spelling that
is found there counts, so a name may start like a function and the other way round.

Main definitions:

- {lit}`builtins`: the fixed spellings.
- {lit}`SymbolTable.bind` and {lit}`SymbolTable.add`: how names are bound.
- {lit}`SymbolTable.lookup`: the longest spelling at the start of a text.

Main results:

- Theorem {lit}`SymbolTable.exists_of_lookup`: what is found is one of the symbols.
-/

namespace TapeCalc

/-- A spelling and the token it is read as. -/
structure Symbol where
  spelling : List Char
  token : Token
deriving DecidableEq

/-- A spelling written as a string. -/
def Symbol.ofString (spelling : String) (token : Token) : Symbol := ⟨spelling.toList, token⟩

/-- The fixed spellings. -/
def builtins : List Symbol := [
  .ofString "(" .leftParen,
  .ofString ")" .rightParen,
  .ofString "+" (.additive .plus),
  .ofString "-" (.additive .minus),
  .ofString "*" (.multiplicative .times),
  .ofString "/" (.multiplicative .divide),
  .ofString "^" .power,
  .ofString "π" .pi,
  .ofString "PI" .pi,
  .ofString "EXP" (.function .exp),
  .ofString "LOG" (.function .log),
  .ofString "LN" (.function .log),
  .ofString "LOG10" (.function .log10),
  .ofString "SIN" (.function .sin),
  .ofString "COS" (.function .cos),
  .ofString "TAN" (.function .tan),
  .ofString "ATN" (.function .atn),
  .ofString "ATAN" (.function .atn),
  .ofString "SQR" (.function .sqr),
  .ofString "SQRT" (.function .sqrt),
  .ofString "ABS" (.function .abs),
  .ofString "INT" (.function .int)]

/-- A variable and the name it is read by. -/
structure Binding where
  name : List Char
  slot : Slot
deriving DecidableEq

/-- The symbol of a bound variable. -/
def Binding.symbol (binding : Binding) : Symbol := ⟨binding.name, .load binding.slot⟩

/-- The names bound on top of the fixed spellings. -/
structure SymbolTable where
  bindings : List Binding
deriving DecidableEq

namespace SymbolTable

/-- The table without names. -/
def empty : SymbolTable := ⟨[]⟩

/-- All symbols, names before fixed spellings. -/
def symbols (table : SymbolTable) : List Symbol :=
  table.bindings.map Binding.symbol ++ builtins

/-- Whether a variable has a name. -/
def isBound (table : SymbolTable) (slot : Slot) : Bool :=
  table.bindings.any fun binding => binding.slot = slot

/-- Bind a name to the variable an instruction reads.  The name must be new: neither a bound
name nor a fixed spelling may have the same capital form. -/
def bind (table : SymbolTable) (name : String) (opcode : Opcode) :
    Except Fault SymbolTable :=
  if name.toList.isEmpty then .error (.broken "EMPTY VARIABLE NAME")
  else
    match opcode with
    | .load slot =>
      if table.isBound slot then
        .error ((Fault.plain .symbolTableFull).withDetail "VARIABLE SLOT IN USE")
      else if table.symbols.any fun symbol => sameSpelling symbol.spelling name.toList then
        .error (.plain .duplicateSymbol)
      else .ok ⟨table.bindings ++ [⟨name.toList, slot⟩]⟩
    | _ => .error (.broken "NOT A VARIABLE OPCODE")

/-- Bind a name to the first variable without one. -/
def add (table : SymbolTable) (name : String) : Except Fault (Slot × SymbolTable) :=
  match Slot.all.find? fun slot => !table.isBound slot with
  | none => .error ((Fault.plain .symbolTableFull).withDetail "NO FREE VARIABLE SLOT")
  | some slot => return (slot, ← table.bind name (.load slot))

/-- The table for the names of a compilation.  An empty name leaves its variable out. -/
def ofNames (xName yName : String) : Except Fault SymbolTable := do
  let table ← if xName.isEmpty then pure empty else empty.bind xName (.load .x)
  if yName.isEmpty then pure table else table.bind yName (.load .y)

/-- Of two symbols the longer one, and the first when both are equally long. -/
def longer (best : Option Symbol) (symbol : Symbol) : Option Symbol :=
  match best with
  | none => some symbol
  | some chosen =>
    if chosen.spelling.length < symbol.spelling.length then some symbol else some chosen

/-- The longest spelling at the start of a text: its number of characters and its token. -/
def lookup (table : SymbolTable) (text : List Char) : Option (Nat × Token) :=
  let found := table.symbols.filter fun symbol => startsWith symbol.spelling text
  (found.foldl longer none).map fun symbol => (symbol.spelling.length, symbol.token)

/-- What stands in the end is what stood at the start or one of the symbols gone through. -/
theorem foldl_longer {found : List Symbol} {best : Option Symbol} {symbol : Symbol}
    (h : found.foldl longer best = some symbol) : best = some symbol ∨ symbol ∈ found := by
  induction found generalizing best with
  | nil => exact Or.inl h
  | cons first found ih =>
    rw [List.foldl_cons] at h
    rcases ih h with chosen | member
    · cases best with
      | none =>
        have same : first = symbol := by simpa [longer] using chosen
        exact Or.inr (same ▸ List.mem_cons_self)
      | some old =>
        rw [longer] at chosen
        split at chosen
        · have same : first = symbol := by simpa using chosen
          exact Or.inr (same ▸ List.mem_cons_self)
        · exact Or.inl chosen
    · exact Or.inr (List.mem_cons_of_mem _ member)

/-- What is found is the spelling of a symbol that the text starts with. -/
theorem exists_of_lookup {table : SymbolTable} {text : List Char} {length : Nat}
    {token : Token} (h : table.lookup text = some (length, token)) :
    ∃ symbol ∈ table.symbols, startsWith symbol.spelling text = true ∧
      symbol.spelling.length = length ∧ symbol.token = token := by
  rw [lookup, Option.map_eq_some_iff] at h
  obtain ⟨symbol, chosen, same⟩ := h
  rcases foldl_longer chosen with impossible | member
  · cases impossible
  · have found := List.mem_filter.mp member
    injection same with sameLength sameToken
    exact ⟨symbol, found.1, found.2, sameLength, sameToken⟩

/-- What is found is no longer than the text. -/
theorem length_le_of_lookup {table : SymbolTable} {text : List Char} {length : Nat}
    {token : Token} (h : table.lookup text = some (length, token)) : length ≤ text.length := by
  obtain ⟨symbol, _, starts, same, _⟩ := exists_of_lookup h
  exact same ▸ startsWith_length starts

/-- The tables that binding names one after the other leads to.  A name that is refused
leaves the table as it was. -/
inductive Reachable : SymbolTable → Prop where
  | empty : Reachable empty
  | bind {table after : SymbolTable} {name : String} {opcode : Opcode}
      (reachable : Reachable table) (bound : table.bind name opcode = .ok after) :
      Reachable after

end SymbolTable

end TapeCalc
