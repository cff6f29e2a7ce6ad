/-! The random generator that native functions draw from: the words of a ChaCha stream with eight
rounds. Its state is the key and how many words were drawn. A seed is stretched to a key by a
64-bit linear generator with permuted output. -/
namespace EntityMachine

structure RandomStream where
  key : Array UInt32
  drawn : Nat
  deriving DecidableEq, Inhabited, Repr

namespace RandomStream

def rotateLeft (word : UInt32) (count : UInt32) : UInt32 :=
  word <<< count ||| word >>> (32 - count)

def rotateRight (word : UInt32) (count : UInt32) : UInt32 :=
  word >>> count ||| word <<< ((32 - count) % 32)

/-! ## Key -/

def advance (state : UInt64) : UInt64 := state * 6364136223846793005 + 11634580027462260723

def permuted (state : UInt64) : UInt32 :=
  let mixed := (((state >>> 18) ^^^ state) >>> 27).toUInt32
  rotateRight mixed (state >>> 59).toUInt32

def keyWords : Nat → UInt64 → List UInt32
  | 0, _ => []
  | count + 1, state => permuted (advance state) :: keyWords count (advance state)

def ofSeed (seed : UInt64) : RandomStream := { key := (keyWords 8 seed).toArray, drawn := 0 }

/-! ## Blocks -/

def quarterRound (block : Array UInt32) (a b c d : Nat) : Array UInt32 :=
  let wa := block.getD a 0
  let wb := block.getD b 0
  let wc := block.getD c 0
  let wd := block.getD d 0
  let wa := wa + wb
  let wd := rotateLeft (wd ^^^ wa) 16
  let wc := wc + wd
  let wb := rotateLeft (wb ^^^ wc) 12
  let wa := wa + wb
  let wd := rotateLeft (wd ^^^ wa) 8
  let wc := wc + wd
  let wb := rotateLeft (wb ^^^ wc) 7
  (((block.setIfInBounds a wa).setIfInBounds b wb).setIfInBounds c wc).setIfInBounds d wd

def doubleRound (block : Array UInt32) : Array UInt32 :=
  let block := quarterRound block 0 4 8 12
  let block := quarterRound block 1 5 9 13
  let block := quarterRound block 2 6 10 14
  let block := quarterRound block 3 7 11 15
  let block := quarterRound block 0 5 10 15
  let block := quarterRound block 1 6 11 12
  let block := quarterRound block 2 7 8 13
  quarterRound block 3 4 9 14

/-- Constants, key, 64-bit block number and two zero words. -/
def initialBlock (key : Array UInt32) (number : Nat) : Array UInt32 :=
  #[0x61707865, 0x3320646e, 0x79622d32, 0x6b206574] ++ key ++
    #[UInt32.ofNat number, UInt32.ofNat (number / 0x100000000), 0, 0]

def block (key : Array UInt32) (number : Nat) : Array UInt32 :=
  let initial := initialBlock key number
  let mixed := doubleRound (doubleRound (doubleRound (doubleRound initial)))
  mixed.zipWith (· + ·) initial

def word (key : Array UInt32) (place : Nat) : UInt32 :=
  (block key (place / 16)).getD (place % 16) 0

def next (stream : RandomStream) : UInt32 × RandomStream :=
  (word stream.key stream.drawn, { stream with drawn := stream.drawn + 1 })

end RandomStream
end EntityMachine
