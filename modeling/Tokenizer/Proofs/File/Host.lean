import Tokenizer.Host

/-!
Single steps of a machine that is a value.
-/

namespace Tokenizer

variable {world after : World} {α β : Type}

theorem eq_mk_of_fst_eq {pair : α × β} {first : α} (same : pair.1 = first) :
    pair = (first, pair.2) :=
  Prod.ext same rfl

theorem run_bind_eq {action : StateM World α} {result : α} (next : α → StateM World β)
    (done : action.run world = (result, after)) :
    (action >>= next).run world = (next result).run after := by
  rw [StateT.run_bind, done]
  rfl

theorem fromUTF8?_toUTF8 (text : String) : String.fromUTF8? text.toUTF8 = some text := by
  simp only [String.fromUTF8?, String.toUTF8_eq_toByteArray, dif_pos text.isValidUTF8]
  rfl

/-- The text that some contents encode. -/
def textOf : Except SystemError ByteArray → Except SystemError String
  | .error cause => .error cause
  | .ok bytes =>
      match String.fromUTF8? bytes with
      | some text => .ok text
      | none => .error .invalidText

theorem run_readText_eq (world : World) (path : String) :
    (Host.readText path : StateM World _).run world =
      (textOf (world.files.read path), world) := by
  have read : (Host.read path : StateM World _).run world =
      (world.files.read path, world) := rfl
  rw [Host.readText, run_bind_eq _ read]
  cases world.files.read path with
  | error cause => rfl
  | ok bytes =>
      simp only [textOf]
      cases String.fromUTF8? bytes <;> rfl

theorem run_readText {path text : String} (readable : world.files.read path = .ok text.toUTF8) :
    (Host.readText path : StateM World _).run world = (.ok text, world) := by
  rw [run_readText_eq, readable]
  simp only [textOf, fromUTF8?_toUTF8]

end Tokenizer
