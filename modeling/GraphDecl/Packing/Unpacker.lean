import GraphDecl.Packing.Portion

/-!
Packed data. An unpacker goes through the packed bytes and puts out what they stand for. It stops early
where the bytes run out or make no sense; what it has put out until then stays.
-/

namespace GraphDecl.Packing

/-- Why unpacking stops before the mark that ends the data. -/
inductive Stop (φ : Type)
  | exhausted
  | broken (fault : φ)
  deriving DecidableEq, Repr

/-- What comes out of packed data; without a `stop` if the data goes on to its end mark. -/
structure Unpacked (φ : Type) where
  bytes : ByteArray
  stop : Option (Stop φ)

def Unpacked.fault? {φ : Type} (u : Unpacked φ) : Option φ :=
  match u.stop with
  | some (.broken fault) => some fault
  | _ => none

/-- The end of packed bytes is no end mark. -/
def Unpacked.isEnded {φ : Type} (u : Unpacked φ) : Bool := u.stop.isNone

/-- Steps that read packed bytes and change a state `σ`, which stays when they stop. -/
abbrev Unpacker (σ φ α : Type) := ReaderT Supply (ExceptT (Stop φ) (StateM σ)) α

def broken {σ φ α : Type} (fault : φ) : Unpacker σ φ α := throw (.broken fault)

/-- Runs an unpacker from the first portion on; `result` finds the unpacked bytes, and the portion in which
it has stopped, in its state. Where only the last bytes are still to come, a fault does not matter. -/
def run {σ φ : Type} (result : σ → ByteArray × Portion) (steps : Unpacker σ φ Unit)
    (start : Portion → σ) (supply : Supply) : Unpacked φ :=
  match supply.first? with
  | none => ⟨.empty, some .exhausted⟩
  | some portion =>
    match ((steps.run supply).run).run (start portion) with
    | (.ok (), s) => ⟨(result s).1, none⟩
    | (.error stop, s) =>
      let (out, portion) := result s
      ⟨out, some (if supply.isLast portion then .exhausted else stop)⟩

/-! ### Repetitions -/

def putTimes (byte : UInt8) : Nat → ByteArray → ByteArray
  | 0, out => out
  | n + 1, out => putTimes byte n (out.push byte)

/-- Repeats bytes that start `distance` bytes before the end; what is put is repeated in turn. -/
def repeatBytes (distance : Nat) : Nat → ByteArray → ByteArray
  | 0, out => out
  | n + 1, out => repeatBytes distance n (out.push (out[out.size - distance]?.getD 0))

end GraphDecl.Packing
