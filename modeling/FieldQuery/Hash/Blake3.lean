import FieldQuery.Text.Bytes

/-!
# The BLAKE3 hash

The unkeyed hash of a byte string, 32 bytes long.  The input is cut into chunks of 1024 bytes and
these into blocks of 64; a chunk's blocks are compressed in a row, and the chunks' results are
compressed pairwise, level by level, until one node is left.

Main definitions:

- `Blake3.compress`: the compression function.
- `Blake3.Node`: a compression whose last step is still to be taken, because only the root of the
  tree is finished under its own flag.
- `Blake3.hash`, `Blake3.hex`: the hash as bytes and as hexadecimal text.
-/

namespace FieldQuery.Blake3

abbrev Block := Vector UInt32 16

abbrev Chaining := Vector UInt32 8

def initial : Chaining :=
  #v[0x6A09E667, 0xBB67AE85, 0x3C6EF372, 0xA54FF53A, 0x510E527F, 0x9B05688C, 0x1F83D9AB, 0x5BE0CD19]

/-- The order in which a round takes the words of the round before. -/
def schedule : Vector (Fin 16) 16 :=
  #v[2, 6, 3, 10, 7, 0, 4, 13, 1, 11, 12, 5, 9, 14, 15, 8]

def chunkStart : UInt32 := 1
def chunkEnd : UInt32 := 2
def parent : UInt32 := 4
def root : UInt32 := 8

def rotateRight (w : UInt32) (n : UInt32) : UInt32 :=
  (w >>> n) ||| (w <<< (32 - n))

/-- The quarter round: four words of the state take in two words of the message. -/
def mix (v : Block) (a b c d : Fin 16) (x y : UInt32) : Block :=
  let va := v[a] + v[b] + x
  let vd := rotateRight (v[d] ^^^ va) 16
  let vc := v[c] + vd
  let vb := rotateRight (v[b] ^^^ vc) 12
  let va := va + vb + y
  let vd := rotateRight (vd ^^^ va) 8
  let vc := vc + vd
  let vb := rotateRight (vb ^^^ vc) 7
  (((v.set a va).set b vb).set c vc).set d vd

/-- Columns, then diagonals. -/
def round (v m : Block) : Block :=
  let v := mix v 0 4 8 12 m[0] m[1]
  let v := mix v 1 5 9 13 m[2] m[3]
  let v := mix v 2 6 10 14 m[4] m[5]
  let v := mix v 3 7 11 15 m[6] m[7]
  let v := mix v 0 5 10 15 m[8] m[9]
  let v := mix v 1 6 11 12 m[10] m[11]
  let v := mix v 2 7 8 13 m[12] m[13]
  mix v 3 4 9 14 m[14] m[15]

def reorder (m : Block) : Block :=
  schedule.map (m[·])

/-- `count` rounds, the message reordered behind each. -/
def rounds : Nat → Block → Block → Block
  | 0, v, _ => v
  | count + 1, v, m => rounds count (round v m) (reorder m)

/-- A compression whose flags are still open. -/
structure Node where
  chaining : Chaining
  block : Block
  counter : UInt64
  size : UInt32
  flags : UInt32

/-- The compression function, cut to its first eight words. -/
def compress (node : Node) (flags : UInt32) : Chaining :=
  let link := node.chaining
  let v : Block :=
    #v[link[0], link[1], link[2], link[3], link[4], link[5], link[6], link[7],
       initial[0], initial[1], initial[2], initial[3],
       node.counter.toUInt32, (node.counter >>> 32).toUInt32, node.size, node.flags ||| flags]
  let v := rounds 7 v node.block
  Vector.ofFn fun (i : Fin 8) => v[i.val] ^^^ v[i.val + 8]

/-- Four bytes as a word, the lowest first. -/
def word (bytes : List UInt8) : UInt32 :=
  bytes.foldr (fun b w => (w <<< 8) ||| b.toUInt32) 0

/-- Up to 64 bytes as words, filled up with zeros. -/
def blockOf (bytes : List UInt8) : Block :=
  Vector.ofFn fun (i : Fin 16) => word ((bytes.drop (4 * i.val)).take 4)

/-- A list in pieces of `n + 1` elements; the empty list is one empty piece. -/
def pieces {α : Type} (n : Nat) (xs : List α) : List (List α) :=
  if xs.length ≤ n + 1 then [xs]
  else xs.take (n + 1) :: pieces n (xs.drop (n + 1))
termination_by xs.length
decreasing_by simp only [List.length_drop]; omega

/-- The blocks of a chunk behind the first, in a row; the last one stays open. -/
def chunkBlocks (chaining : Chaining) (counter : UInt64) (flags : UInt32) (block : List UInt8) :
    List (List UInt8) → Node
  | [] => ⟨chaining, blockOf block, counter, UInt32.ofNat block.length, flags ||| chunkEnd⟩
  | next :: rest =>
    let node : Node := ⟨chaining, blockOf block, counter, UInt32.ofNat block.length, flags⟩
    chunkBlocks (compress node 0) counter 0 next rest

def chunk (counter : UInt64) (bytes : List UInt8) : Node :=
  match pieces 63 bytes with
  | [] => chunkBlocks initial counter chunkStart [] []
  | block :: rest => chunkBlocks initial counter chunkStart block rest

/-- Two nodes under one parent. -/
def join (left right : Node) : Node :=
  ⟨initial, (compress left 0 ++ compress right 0).cast rfl, 0, 64, parent⟩

/-- Neighbours joined pairwise; one without a neighbour moves up as it is. -/
def level : List Node → List Node
  | left :: right :: rest => join left right :: level rest
  | short => short

theorem length_level (nodes : List Node) : (level nodes).length = (nodes.length + 1) / 2 := by
  fun_induction level nodes with
  | case1 left right rest ih => simp [ih]; omega
  | case2 short h =>
    match short, h with
    | [], _ => rfl
    | [_], _ => simp
    | a :: b :: rest, h => exact absurd rfl (h a b rest)

/-- The node that all others are joined under. -/
def top (first : Node) (rest : List Node) : Node :=
  match rest with
  | [] => first
  | second :: others => top (join first second) (level others)
termination_by rest.length
decreasing_by simp only [length_level, List.length_cons]; omega

def bytesOf (w : UInt32) : List UInt8 :=
  [w.toUInt8, (w >>> 8).toUInt8, (w >>> 16).toUInt8, (w >>> 24).toUInt8]

/-- The hash of a byte string. -/
def hash (bytes : List UInt8) : List UInt8 :=
  match (pieces 1023 bytes).mapIdx (fun i piece => chunk (UInt64.ofNat i) piece) with
  | [] => []
  | first :: rest => (compress (top first rest) root).toList.flatMap bytesOf

/-- The hash of a text's UTF-8 bytes, in 64 lower-case hexadecimal digits. -/
def hex (text : String) : String :=
  String.ofList ((hash text.toUTF8.toList).flatMap Text.hexByte)

end FieldQuery.Blake3
