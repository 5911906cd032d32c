import RamShared.Block.Origin

/-! The storage interface of the request path, and backends whose calls depend on and change
the addressed range only. -/
namespace RamShared.Block
open Lib

/-- The default of `write_at_with_options`: a forced write is a write and a flush. -/
def writeThenFlush {B : Type} (writeAt : B → ℕ → List UInt8 → Except IoError Unit × B)
    (flush : B → Except IoError Unit × B) (b : B) (off : ℕ) (data : List UInt8)
    (options : WriteOptions) : Except IoError Unit × B :=
  let (result,b) := writeAt b off data
  match result with
  | .error e => (.error e,b)
  | .ok () => if options.fua then flush b else (.ok (),b)

/-- `BlockBackend`, with the trait's default methods. A read returns the filled buffer. -/
class BlockBackend (B : Type) where
  sizeBytes : B → ℕ
  blockSize : B → ℕ
  isReadOnly : B → Bool := fun _ => false
  readAt : B → ℕ → ℕ → Except IoError (List UInt8) × B
  writeAt : B → ℕ → List UInt8 → Except IoError Unit × B
  flush : B → Except IoError Unit × B
  writeAtWithOptions : B → ℕ → List UInt8 → WriteOptions → Except IoError Unit × B :=
    writeThenFlush writeAt flush

/-- `read_at` is handed a buffer of the length to read, and fills it. -/
class FillsBuffer (B : Type) [BlockBackend B] : Prop where
  length_readAt : ∀ (b : B) off len data, (BlockBackend.readAt b off len).1=.ok data →
    data.length=len

/-- A backend over a byte image. Every call is confined to the range that it addresses, and a
flush to no range at all. -/
class LocalBackend (B : Type) [BlockBackend B] where
  Config : Type
  view : CellView B Config UInt8
  sizeBytes_eq : ∀ b b', view.config b = view.config b' →
    BlockBackend.sizeBytes b = BlockBackend.sizeBytes b'
  blockSize_eq : ∀ b b', view.config b = view.config b' →
    BlockBackend.blockSize b = BlockBackend.blockSize b'
  readAt_confined : ∀ off len,
    view.Confined off (off+len) fun b => BlockBackend.readAt b off len
  writeAtWithOptions_confined : ∀ off data options,
    view.Confined off (off+data.length) fun b =>
      BlockBackend.writeAtWithOptions b off data options
  flush_confined : ∀ off, view.Confined off off (BlockBackend.flush (B := B))

lemma confined_writeThenFlush {B C : Type} {view : CellView B C UInt8}
    {writeAt : B → ℕ → List UInt8 → Except IoError Unit × B}
    {flush : B → Except IoError Unit × B} {lo hi off : ℕ} {data : List UInt8}
    (hw : view.Confined lo hi fun b => writeAt b off data) (hf : view.Confined lo hi flush)
    (options : WriteOptions) :
    view.Confined lo hi fun b => writeThenFlush writeAt flush b off data options := by
  refine hw.bind (k := fun r b => match r with
    | .error e => (.error e,b)
    | .ok () => if options.fua then flush b else (.ok (),b)) fun b => ?_
  rcases (writeAt b off data).1 with e | ⟨⟩
  · exact CellView.confined_pure fun _ _ _ => rfl
  · cases options.fua
    · exact CellView.confined_pure fun _ _ _ => rfl
    · exact hf

end RamShared.Block
