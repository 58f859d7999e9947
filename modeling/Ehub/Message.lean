import Mathlib

/-!
The messages that the device sends and the parser that takes them apart
(`ehub_message.c`). A received buffer is a sequence of records; a record starts
with a 32-bit header whose flags decide its type and, for a write, hold the
number of payload bytes. The parser is modelled with every read it makes of the
buffer (`Act.read`) and every message it hands on (`Act.handle`).
-/
namespace Ehub.Message

abbrev Byte := BitVec 8
abbrev Dword := BitVec 32

/-- The bytes from `DataBuffer` on, past the end of the buffer too: what stands
    there is whatever the kernel has put there. -/
abbrev Memory := Nat → Byte

/-- The little-endian 32-bit word at an offset. -/
def dword (mem : Memory) (offset : Nat) : Dword :=
  mem (offset + 3) ++ mem (offset + 2) ++ mem (offset + 1) ++ mem offset

/-! ### The header -/

/-- `Read`, bit 0 of `EMBEDDED_GENERIC_HEADER`. -/
def read (header : Dword) : Bool := header.getLsbD 0
/-- `Write`, bit 1. -/
def write (header : Dword) : Bool := header.getLsbD 1
/-- `RegAccess`, bit 5. -/
def regAccess (header : Dword) : Bool := header.getLsbD 5
/-- `Length` of `EMBEDDED_MEMORY_COMMAND`, bits 8 to 23. -/
def length (header : Dword) : Nat := (header.extractLsb' 8 16).toNat
/-- `RequestId`, bits 24 to 26, at the same place in both unions. -/
def requestId (header : Dword) : Nat := (header.extractLsb' 24 3).toNat

def memWrTagEvtMgr : Nat := 0
/-- `sizeof( EMBEDDED_MEMORY_COMMAND )`. -/
def sizeofMemoryCommand : Nat := 4
/-- `sizeof( EMBEDDED_MEMORY_TRANSFER )`. -/
def sizeofMemoryTransfer : Nat := 12
/-- `sizeof( EMBEDDED_REGISTER_DATA_RESPONSE )`. -/
def sizeofRegisterDataResponse : Nat := 16
/-- `sizeof( struct xhci_generic_trb )`. -/
def sizeofGenericTrb : Nat := 16
def ehubMinValidVaddr : Nat := 0x00100000

inductive MessageType
  | unknown
  | memoryReadCompletion
  | memoryWriteCompletion
  | registerReadCompletion
  | eventTrb
  deriving DecidableEq, Repr

/-- `MESSAGE_GetType`: the type and the length of the record with this header. -/
def messageGetType (header : Dword) : MessageType × Nat :=
  if regAccess header then (.registerReadCompletion, sizeofRegisterDataResponse)
  else if read header then (.memoryReadCompletion, sizeofMemoryTransfer)
  else if write header then
    (if requestId header = memWrTagEvtMgr then .eventTrb else .memoryWriteCompletion,
      sizeofMemoryTransfer + length header)
  else (.unknown, 0)

/-- `roundup( n, 4 )`. -/
def roundup4 (n : Nat) : Nat := (n + 3) / 4 * 4

/-! ### The parser -/

/-- What the parser does that can be seen from outside. -/
inductive Act
  | read (offset size : Nat)
  | handle (type : MessageType) (offset : Nat)
  deriving DecidableEq, Repr

/-- The parts of the driver that the parser consults: the result of
    `DEVICECONTEXT_ErrorCheck` at each pass of its loop, whether the xHCI part is
    initialised, and whether debug messages (which evaluate their arguments) are on. -/
structure Context where
  errorCheck : Nat → Int
  isEhubXhciInitReady : Bool
  debug : Bool

/-- `trb_ptr_to_addr` of the address words of the record at `offset`. -/
def addressTarget (mem : Memory) (offset : Nat) : Nat :=
  (dword mem (offset + 8)).toNat * 2 ^ 32 + (dword mem (offset + 4)).toNat

/-- The reads of `MESSAGE_HandleMessage_EMBEDDED_REGISTER_READ_COMPLETION`:
    `Data` and `Dwords[1]`. -/
def handleRegisterReadCompletion (offset : Nat) : List Act :=
  [.read (offset + 12) 4, .read (offset + 4) 4]

/-- The reads of `MESSAGE_HandleMessage_EMBEDDED_MEMORY_READ_COMPLETION`: the
    address words before its error check, the command word after it. The bytes
    that it sends back are read from the target, not from the buffer. -/
def handleMemoryReadCompletion (offset : Nat) : List Act :=
  [.read (offset + 4) 4, .read (offset + 8) 4, .read offset sizeofMemoryCommand]

/-- The reads of `MESSAGE_HandleMessage_EMBEDDED_EVENT_TRB`: an event TRB behind
    the header, whatever length the header states. -/
def handleEventTrb (context : Context) (offset : Nat) : List Act :=
  if context.isEhubXhciInitReady || context.debug then
    [.read (offset + sizeofMemoryTransfer) sizeofGenericTrb]
  else []

/-- The reads of `MESSAGE_HandleMessage_EMBEDDED_MEMORY_WRITE_COMPLETION`: a
    target below `EHUB_MIN_VALID_VADDR` is refused before the payload is copied. -/
def handleMemoryWriteCompletion (mem : Memory) (offset : Nat) : List Act :=
  [.read (offset + 4) 4, .read (offset + 8) 4, .read offset sizeofMemoryCommand] ++
    if addressTarget mem offset < ehubMinValidVaddr then []
    else [.read (offset + sizeofMemoryTransfer) (length (dword mem offset))]

/-- `MESSAGE_Handle`. -/
def messageHandle (context : Context) (mem : Memory) (offset : Nat) : MessageType → List Act
  | .registerReadCompletion => handleRegisterReadCompletion offset
  | .memoryReadCompletion => handleMemoryReadCompletion offset
  | .eventTrb => handleEventTrb context offset
  | .memoryWriteCompletion => handleMemoryWriteCompletion mem offset
  | .unknown => []

/-- The loop of `MESSAGE_Parsing` from its pass number `pass` on, at most `fuel`
    passes; `none` when they do not suffice. -/
def parsingLoop (context : Context) (mem : Memory) (dataBufferLength : Nat) :
    Nat → Nat → Nat → Option (List Act)
  | 0, _, _ => none
  | fuel + 1, pass, parsingLength =>
    let header := dword mem parsingLength
    -- `Value` is read before anything else, and once more for its flags.
    if header = 0 then some [.read parsingLength 4]
    else
      let looked := [.read parsingLength 4, .read parsingLength 4]
      let (messageType, messageLength) := messageGetType header
      if messageType = .unknown then some looked
      else if context.errorCheck pass < 0 then some looked
      else
        let done := looked ++ .handle messageType parsingLength ::
          messageHandle context mem parsingLength messageType
        let parsingLength := parsingLength + roundup4 messageLength
        if parsingLength < dataBufferLength then
          (parsingLoop context mem dataBufferLength fuel (pass + 1) parsingLength).map (done ++ ·)
        else some done

/-- `MESSAGE_Parsing`; `dataBufferLength` passes always suffice
    (`messageParsing_terminates`). -/
def messageParsing (context : Context) (mem : Memory) (dataBufferLength : Nat) : Option (List Act) :=
  parsingLoop context mem dataBufferLength dataBufferLength 0 0

/-! ### What a pass of the loop does -/

section
variable (context : Context) (mem : Memory) (len : Nat)

/-- Pass number `pass` hands the record at `offset` to its handler. -/
def Dispatched (pass offset : Nat) : Prop :=
  dword mem offset ≠ 0 ∧ (messageGetType (dword mem offset)).1 ≠ .unknown ∧ 0 ≤ context.errorCheck pass

instance (pass offset : Nat) : Decidable (Dispatched context mem pass offset) :=
  inferInstanceAs (Decidable (_ ∧ _ ∧ _))

/-- From the record at `offset` to the next one. -/
def advance (offset : Nat) : Nat := roundup4 (messageGetType (dword mem offset)).2

/-- Everything that a dispatching pass does with the record at `offset`. -/
def passActs (offset : Nat) : List Act :=
  [.read offset 4, .read offset 4] ++ .handle (messageGetType (dword mem offset)).1 offset ::
    messageHandle context mem offset (messageGetType (dword mem offset)).1

theorem parsingLoop_dispatched {pass offset : Nat} (fuel : Nat) (dispatched : Dispatched context mem pass offset) :
    parsingLoop context mem len (fuel + 1) pass offset =
      if offset + advance mem offset < len then
        (parsingLoop context mem len fuel (pass + 1) (offset + advance mem offset)).map
          (passActs context mem offset ++ ·)
      else some (passActs context mem offset) := by
  obtain ⟨nonzero, known, noError⟩ := dispatched
  rw [parsingLoop]
  simp only [nonzero, known, Int.not_lt.mpr noError, if_false]
  rfl

/-- A pass that dispatches nothing reads the header word and ends the loop. -/
theorem parsingLoop_stops {pass offset : Nat} (stops : ¬ Dispatched context mem pass offset) :
    ∃ acts, (∀ fuel, parsingLoop context mem len (fuel + 1) pass offset = some acts) ∧
      acts ≠ [] ∧ ∀ act ∈ acts, act = .read offset 4 := by
  by_cases zero : dword mem offset = 0
  · exact ⟨[.read offset 4], fun fuel => by simp [parsingLoop, zero], by simp, by simp⟩
  · refine ⟨[.read offset 4, .read offset 4], fun fuel => ?_, by simp, by simp⟩
    rw [parsingLoop]
    by_cases unknown : (messageGetType (dword mem offset)).1 = .unknown
    · simpa [unknown] using zero
    · have error : context.errorCheck pass < 0 := by
        by_contra noError
        exact stops ⟨zero, unknown, Int.not_lt.mp noError⟩
      simpa [unknown, error] using zero

/-- Every record that is handed on moves the parser by at least twelve bytes. -/
theorem advance_ge {pass offset : Nat} (dispatched : Dispatched context mem pass offset) :
    12 ≤ advance mem offset := by
  obtain ⟨_, known, _⟩ := dispatched
  revert known
  unfold advance messageGetType roundup4 sizeofRegisterDataResponse sizeofMemoryTransfer
  split_ifs <;> simp <;> omega

theorem parsingLoop_terminates (fuel pass offset : Nat) (enough : len ≤ offset + fuel) (some_ : 0 < fuel) :
    ∃ acts, parsingLoop context mem len fuel pass offset = some acts := by
  induction fuel generalizing pass offset with
  | zero => omega
  | succ fuel ih =>
    by_cases dispatched : Dispatched context mem pass offset
    · rw [parsingLoop_dispatched context mem len fuel dispatched]
      have far := advance_ge context mem dispatched
      split_ifs with inside
      · obtain ⟨acts, rest⟩ := ih (pass + 1) (offset + advance mem offset) (by omega) (by omega)
        exact ⟨_, by rw [rest]; rfl⟩
      · exact ⟨_, rfl⟩
    · obtain ⟨acts, stopped, _⟩ := parsingLoop_stops context mem len dispatched
      exact ⟨acts, stopped fuel⟩

/-- The parser ends on every buffer. -/
theorem messageParsing_terminates (nonempty : 1 ≤ len) :
    ∃ acts, messageParsing context mem len = some acts :=
  parsingLoop_terminates context mem len len 0 0 (by omega) nonempty

/-! ### Which bytes are read -/

/-- Every byte read lies in the first `len` bytes of the buffer. -/
def ReadsInside (acts : List Act) : Prop :=
  ∀ offset size, .read offset size ∈ acts → ∀ i < size, offset + i < len

/-- The bytes of the record at `offset` that its handler looks at. An event
    record is looked at for 28 bytes, a write for as long as its header says. -/
def extent (offset : Nat) : Nat :=
  match (messageGetType (dword mem offset)).1 with
  | .registerReadCompletion => sizeofRegisterDataResponse
  | .memoryReadCompletion => sizeofMemoryTransfer
  | .eventTrb =>
    if context.isEhubXhciInitReady || context.debug then sizeofMemoryTransfer + sizeofGenericTrb else 4
  | .memoryWriteCompletion =>
    if addressTarget mem offset < ehubMinValidVaddr then sizeofMemoryTransfer
    else sizeofMemoryTransfer + length (dword mem offset)
  | .unknown => 4

/-- The loop comes from pass `pass` at `offset` to pass `pass'` at `offset'`. -/
inductive ReachedFrom : Nat → Nat → Nat → Nat → Prop
  | here (pass offset : Nat) : ReachedFrom pass offset pass offset
  | next {pass offset pass' offset' : Nat} (dispatched : Dispatched context mem pass offset)
      (inside : offset + advance mem offset < len)
      (rest : ReachedFrom (pass + 1) (offset + advance mem offset) pass' offset') :
      ReachedFrom pass offset pass' offset'

/-- Every record that starts in the buffer is complete: its header is there, and
    when it is handed on, so is all that its type makes the handler look at. -/
def Complete (pass offset : Nat) : Prop :=
  ∀ pass' offset', ReachedFrom context mem len pass offset pass' offset' →
    offset' + 4 ≤ len ∧
      (Dispatched context mem pass' offset' → offset' + extent context mem offset' ≤ len)

theorem readsInside_append (left right : List Act) :
    ReadsInside len (left ++ right) ↔ ReadsInside len left ∧ ReadsInside len right := by
  constructor
  · intro inside
    exact ⟨fun offset size member => inside offset size (List.mem_append_left _ member),
      fun offset size member => inside offset size (List.mem_append_right _ member)⟩
  · rintro ⟨first, second⟩ offset size member
    rcases List.mem_append.mp member with member | member
    · exact first offset size member
    · exact second offset size member

theorem readsInside_nil : ReadsInside len [] := by simp [ReadsInside]

theorem readsInside_read (offset size : Nat) (rest : List Act) :
    ReadsInside len (.read offset size :: rest) ↔ (size = 0 ∨ offset + size ≤ len) ∧ ReadsInside len rest := by
  constructor
  · intro inside
    refine ⟨?_, fun o s member => inside o s (List.mem_cons_of_mem _ member)⟩
    by_cases empty : size = 0
    · exact .inl empty
    · have := inside offset size (by simp) (size - 1) (by omega)
      exact .inr (by omega)
  · rintro ⟨head, rest⟩ o s member i below
    rcases List.mem_cons.mp member with same | member
    · injection same with sameOffset sameSize
      omega
    · exact rest o s member i below

theorem readsInside_handle (type : MessageType) (offset : Nat) (rest : List Act) :
    ReadsInside len (.handle type offset :: rest) ↔ ReadsInside len rest := by
  simp [ReadsInside]

theorem passActs_inside (offset : Nat) :
    ReadsInside len (passActs context mem offset) ↔
      offset + 4 ≤ len ∧ offset + extent context mem offset ≤ len := by
  unfold passActs extent
  cases (messageGetType (dword mem offset)).1 with
  | unknown =>
    simp [messageHandle, readsInside_read, readsInside_handle, readsInside_nil]
  | memoryReadCompletion =>
    simp [messageHandle, handleMemoryReadCompletion, readsInside_read, readsInside_handle, readsInside_nil,
      sizeofMemoryTransfer, sizeofMemoryCommand]
    omega
  | memoryWriteCompletion =>
    by_cases refused : addressTarget mem offset < ehubMinValidVaddr
    · simp [messageHandle, handleMemoryWriteCompletion, readsInside_read, readsInside_handle, readsInside_nil,
        sizeofMemoryTransfer, sizeofMemoryCommand, refused]
      omega
    · simp [messageHandle, handleMemoryWriteCompletion, readsInside_read, readsInside_handle, readsInside_nil,
        sizeofMemoryTransfer, sizeofMemoryCommand, refused]
      omega
  | registerReadCompletion =>
    simp [messageHandle, handleRegisterReadCompletion, readsInside_read, readsInside_handle, readsInside_nil,
      sizeofRegisterDataResponse]
    omega
  | eventTrb =>
    by_cases looks : context.isEhubXhciInitReady || context.debug
    · simp [messageHandle, handleEventTrb, readsInside_read, readsInside_handle, readsInside_nil,
        sizeofMemoryTransfer, sizeofGenericTrb, looks]
    · simp [messageHandle, handleEventTrb, readsInside_read, readsInside_handle, readsInside_nil, looks]

theorem parsingLoop_inside (fuel pass offset : Nat) {acts : List Act}
    (run : parsingLoop context mem len fuel pass offset = some acts) :
    ReadsInside len acts ↔ Complete context mem len pass offset := by
  induction fuel generalizing pass offset acts with
  | zero => simp [parsingLoop] at run
  | succ fuel ih =>
    by_cases dispatched : Dispatched context mem pass offset
    · rw [parsingLoop_dispatched context mem len fuel dispatched] at run
      split_ifs at run with inside
      · obtain ⟨rest, tail, rfl⟩ := Option.map_eq_some_iff.mp run
        rw [readsInside_append, passActs_inside, ih _ _ tail]
        constructor
        · rintro ⟨⟨header, record⟩, later⟩ pass' offset' reached
          cases reached with
          | here => exact ⟨header, fun _ => record⟩
          | next _ _ onward => exact later pass' offset' onward
        · intro complete
          obtain ⟨header, record⟩ := complete pass offset (.here pass offset)
          exact ⟨⟨header, record dispatched⟩,
            fun pass' offset' onward => complete pass' offset' (.next dispatched inside onward)⟩
      · cases run
        rw [passActs_inside]
        constructor
        · rintro ⟨header, record⟩ pass' offset' reached
          cases reached with
          | here => exact ⟨header, fun _ => record⟩
          | next _ within _ => exact absurd within inside
        · intro complete
          obtain ⟨header, record⟩ := complete pass offset (.here pass offset)
          exact ⟨header, record dispatched⟩
    · obtain ⟨acts', stopped, nonempty, only⟩ := parsingLoop_stops context mem len dispatched
      have same : acts' = acts := Option.some.inj ((stopped fuel).symm.trans run)
      subst same
      obtain ⟨first, others, shape⟩ := List.exists_cons_of_ne_nil nonempty
      constructor
      · intro inside pass' offset' reached
        have header := inside offset 4 (by rw [← only first (by simp [shape])]; simp [shape]) 3 (by omega)
        cases reached with
        | here => exact ⟨by omega, fun again => absurd again dispatched⟩
        | next again _ _ => exact absurd again dispatched
      · intro complete o s member i below
        have header := (complete pass offset (.here pass offset)).1
        have same := only _ member
        injection same with sameOffset sameSize
        omega

/-- The parser ends, and all that it reads lies in the buffer, exactly when every
    record that starts in the buffer is complete. -/
theorem messageParsing_reads_inside_iff (nonempty : 1 ≤ len) :
    (∃ acts, messageParsing context mem len = some acts ∧ ReadsInside len acts) ↔
      Complete context mem len 0 0 := by
  obtain ⟨acts, run⟩ := messageParsing_terminates context mem len nonempty
  rw [← parsingLoop_inside context mem len len 0 0 run]
  constructor
  · rintro ⟨acts', run', inside⟩
    have same : acts' = acts := Option.some.inj (run'.symm.trans run)
    exact same ▸ inside
  · intro inside
    exact ⟨acts, run, inside⟩

end

/-- A driver in working order. -/
def working : Context := ⟨fun _ => 0, true, false⟩

/-- The bytes of a list, with zeros behind them. -/
def bytesOf (bytes : List Byte) : Memory := fun i => bytes.getD i 0

/-- A register response that is there as a whole is read inside the buffer. -/
theorem messageParsing_reads_inside_response :
    1 ≤ 16 ∧ Complete working (bytesOf [0x20]) 16 0 0 :=
  ⟨by decide, (messageParsing_reads_inside_iff working (bytesOf [0x20]) 16 (by decide)).mp
    ⟨[.read 0 4, .read 0 4, .handle .registerReadCompletion 0, .read 12 4, .read 4 4], by decide, by
      simp [readsInside_read, readsInside_handle, readsInside_nil]⟩⟩

/-- The header of a register response alone: the handler reads `Data` behind the
    end of the buffer. -/
theorem messageParsing_reads_outside_header :
    ¬ ∃ acts, messageParsing working (bytesOf [0x20, 0, 0, 0]) 4 = some acts ∧ ReadsInside 4 acts := by
  rintro ⟨acts, run, inside⟩
  have all : messageParsing working (bytesOf [0x20, 0, 0, 0]) 4 =
      some [.read 0 4, .read 0 4, .handle .registerReadCompletion 0, .read 12 4, .read 4 4] := by decide
  have same := Option.some.inj (run.symm.trans all)
  have outside := inside 12 4 (by simp [same]) 0 (by decide)
  omega

/-! ### The wire format -/

/-- The four bytes of a word, the lowest first. -/
def wordBytes (w : Dword) : List Byte :=
  [w.extractLsb' 0 8, w.extractLsb' 8 8, w.extractLsb' 16 8, w.extractLsb' 24 8]

/-- A message as the device sends it, its header flags checked by construction. -/
inductive Record
  | registerResponse (header first second data : Dword) (access : regAccess header = true)
  | memoryRead (header low high : Dword) (noAccess : regAccess header = false) (reads : read header = true)
  | memoryWrite (header low high : Dword) (payload : List Byte) (noAccess : regAccess header = false)
      (noRead : read header = false) (writes : write header = true) (sized : length header = payload.length)

/-- The type the message has by the flags of the format; a write whose request id
    is that of the event manager is an event. -/
def Record.type : Record → MessageType
  | .registerResponse .. => .registerReadCompletion
  | .memoryRead .. => .memoryReadCompletion
  | .memoryWrite header .. => if requestId header = memWrTagEvtMgr then .eventTrb else .memoryWriteCompletion

/-- Header and payload, without padding. -/
def Record.bytes : Record → List Byte
  | .registerResponse header first second data _ =>
    wordBytes header ++ wordBytes first ++ wordBytes second ++ wordBytes data
  | .memoryRead header low high _ _ => wordBytes header ++ wordBytes low ++ wordBytes high
  | .memoryWrite header low high payload _ _ _ _ =>
    wordBytes header ++ wordBytes low ++ wordBytes high ++ payload

/-- A message padded with zeros to a multiple of four bytes. -/
def encode (m : Record) : List Byte :=
  m.bytes ++ List.replicate (roundup4 m.bytes.length - m.bytes.length) 0

def encodeAll (ms : List Record) : List Byte := ms.flatMap encode

/-- The calls that messages standing one behind the other from `base` on ask for:
    the type of each and where its first byte is. -/
def wanted (base : Nat) : List Record → List (MessageType × Nat)
  | [] => []
  | m :: ms => (m.type, base) :: wanted (base + (encode m).length) ms

/-- The calls of `MESSAGE_Handle` among the acts of the parser. -/
def calls (acts : List Act) : List (MessageType × Nat) :=
  acts.filterMap fun
    | .handle type offset => some (type, offset)
    | .read _ _ => none

/-- `bytes` stand in memory from `base` on. -/
def Holds (mem : Memory) (base : Nat) (bytes : List Byte) : Prop :=
  ∀ i (inside : i < bytes.length), mem (base + i) = bytes[i]

theorem holds_append {mem : Memory} {base : Nat} {left right : List Byte} (holds : Holds mem base (left ++ right)) :
    Holds mem base left ∧ Holds mem (base + left.length) right := by
  constructor
  · intro i inside
    rw [holds i (by simp; omega), List.getElem_append_left inside]
  · intro i inside
    rw [Nat.add_assoc, holds (left.length + i) (by simp; omega), List.getElem_append_right (by omega)]
    simp

theorem dword_of_holds {mem : Memory} {base : Nat} {w : Dword} (holds : Holds mem base (wordBytes w)) :
    dword mem base = w := by
  have b0 : mem base = w.extractLsb' 0 8 := holds 0 (by simp [wordBytes])
  have b1 : mem (base + 1) = w.extractLsb' 8 8 := holds 1 (by simp [wordBytes])
  have b2 : mem (base + 2) = w.extractLsb' 16 8 := holds 2 (by simp [wordBytes])
  have b3 : mem (base + 3) = w.extractLsb' 24 8 := holds 3 (by simp [wordBytes])
  rw [dword, b0, b1, b2, b3]
  apply BitVec.eq_of_getLsbD_eq
  intro i below
  simp only [BitVec.getLsbD_append, BitVec.getLsbD_extractLsb']
  grind

/-- The header word of a message. -/
def Record.header : Record → Dword
  | .registerResponse header .. => header
  | .memoryRead header .. => header
  | .memoryWrite header .. => header

theorem header_of_holds {mem : Memory} {base : Nat} {m : Record} (holds : Holds mem base m.bytes) :
    dword mem base = m.header := by
  cases m with
  | registerResponse header first second data access =>
    exact dword_of_holds (holds_append (holds_append (holds_append holds).1).1).1
  | memoryRead header low high noAccess reads =>
    exact dword_of_holds (holds_append (holds_append holds).1).1
  | memoryWrite header low high payload noAccess noRead writes sized =>
    exact dword_of_holds (holds_append (holds_append (holds_append holds).1).1).1

/-- The type decision and the length computation of the parser are right for
    every message of the format. -/
theorem messageGetType_header (m : Record) : messageGetType m.header = (m.type, m.bytes.length) := by
  cases m with
  | registerResponse header first second data access =>
    simp [messageGetType, Record.header, Record.type, Record.bytes, access, wordBytes,
      sizeofRegisterDataResponse]
  | memoryRead header low high noAccess reads =>
    simp [messageGetType, Record.header, Record.type, Record.bytes, noAccess, reads, wordBytes,
      sizeofMemoryTransfer]
  | memoryWrite header low high payload noAccess noRead writes sized =>
    have whole : 12 + payload.length = (wordBytes header ++ wordBytes low ++ wordBytes high ++ payload).length := by
      simp [wordBytes]
      omega
    by_cases event : requestId header = memWrTagEvtMgr <;>
      simp [messageGetType, Record.header, Record.type, Record.bytes, noAccess, noRead, writes, sized,
        sizeofMemoryTransfer, whole, event]

theorem type_known (m : Record) : m.type ≠ .unknown := by
  cases m <;> simp [Record.type]
  split_ifs <;> simp

/-- A header with one of the three flags set is not the zero word that ends a buffer. -/
theorem header_nonzero (m : Record) : m.header ≠ 0 := by
  intro zero
  have kind := messageGetType_header m
  rw [zero] at kind
  exact type_known m (congrArg Prod.fst kind).symm

theorem encode_length (m : Record) : (encode m).length = roundup4 m.bytes.length := by
  have up : m.bytes.length ≤ roundup4 m.bytes.length := by unfold roundup4; omega
  simp [encode]
  omega

theorem encode_length_ge (m : Record) : 12 ≤ (encode m).length := by
  have header : 12 ≤ m.bytes.length := by
    cases m with
    | registerResponse => simp [Record.bytes, wordBytes]
    | memoryRead => simp [Record.bytes, wordBytes]
    | memoryWrite => simp [Record.bytes, wordBytes]
  rw [encode_length]
  unfold roundup4
  omega

theorem calls_append (left right : List Act) : calls (left ++ right) = calls left ++ calls right := by
  simp [calls]

theorem calls_messageHandle (context : Context) (mem : Memory) (offset : Nat) (type : MessageType) :
    calls (messageHandle context mem offset type) = [] := by
  cases type <;> simp [messageHandle, calls, handleRegisterReadCompletion, handleMemoryReadCompletion,
    handleEventTrb, handleMemoryWriteCompletion]

theorem calls_passActs (context : Context) (mem : Memory) (offset : Nat) :
    calls (passActs context mem offset) = [((messageGetType (dword mem offset)).1, offset)] := by
  have quiet := calls_messageHandle context mem offset (messageGetType (dword mem offset)).1
  simp only [passActs, calls_append]
  simp [calls] at quiet ⊢
  exact quiet

section
variable (context : Context) (mem : Memory)

/-- Messages that stand one behind the other, up to the end of the buffer or to a zero word behind
    them: the parser hands them on and nothing else. -/
theorem parsingLoop_encodeAll (noError : ∀ pass, 0 ≤ context.errorCheck pass) {len : Nat} (ms : List Record)
    (pass base fuel : Nat) (holds : Holds mem base (encodeAll ms)) (starts : base < len)
    (fits : base + (encodeAll ms).length ≤ len)
    (ended : base + (encodeAll ms).length < len → dword mem (base + (encodeAll ms).length) = 0) {acts : List Act}
    (run : parsingLoop context mem len fuel pass base = some acts) :
    calls acts = wanted base ms := by
  induction ms generalizing pass base fuel acts with
  | nil =>
    cases fuel with
    | zero => simp [parsingLoop] at run
    | succ fuel =>
      have zero : dword mem base = 0 := ended starts
      rw [parsingLoop, if_pos zero] at run
      cases run
      rfl
  | cons m ms ih =>
    have split : encodeAll (m :: ms) = encode m ++ encodeAll ms := rfl
    rw [split] at holds
    rw [split, List.length_append, ← Nat.add_assoc] at fits ended
    obtain ⟨here, later⟩ := holds_append holds
    have header := header_of_holds (holds_append here).1
    have kind := messageGetType_header m
    have dispatched : Dispatched context mem pass base :=
      ⟨by rw [header]; exact header_nonzero m, by rw [header, kind]; exact type_known m, noError pass⟩
    have step : advance mem base = (encode m).length := by rw [advance, header, kind, encode_length]
    have first : calls (passActs context mem base) = [(m.type, base)] := by rw [calls_passActs, header, kind]
    cases fuel with
    | zero => simp [parsingLoop] at run
    | succ fuel =>
      rw [parsingLoop_dispatched context mem _ fuel dispatched, step] at run
      by_cases more : base + (encode m).length < len
      · rw [if_pos more] at run
        obtain ⟨rest, tail, rfl⟩ := Option.map_eq_some_iff.mp run
        rw [calls_append, first, ih _ _ fuel later more fits ended tail]
        rfl
      · rw [if_neg more] at run
        cases run
        cases ms with
        | nil => exact first
        | cons m' ms =>
          have := encode_length_ge m'
          simp only [encodeAll, List.flatMap_cons, List.length_append] at fits
          omega

/-- On the encoding of a list of messages the parser calls `MESSAGE_Handle` once
    for each, in order, with its type and the place of its first byte; and on any
    buffer a pass either ends the loop or moves it by at least twelve bytes. -/
theorem messageParsing_encodeAll (noError : ∀ pass, 0 ≤ context.errorCheck pass) (ms : List Record)
    (nonempty : ms ≠ []) (holds : Holds mem 0 (encodeAll ms)) :
    (∃ acts, messageParsing context mem (encodeAll ms).length = some acts ∧ calls acts = wanted 0 ms) ∧
    ∀ (context : Context) (mem : Memory) (len pass offset : Nat),
      (∃ acts, ∀ fuel, parsingLoop context mem len (fuel + 1) pass offset = some acts) ∨
      ∃ acts offset', offset + 12 ≤ offset' ∧ offset' < len ∧ ∀ fuel,
        parsingLoop context mem len (fuel + 1) pass offset =
          (parsingLoop context mem len fuel (pass + 1) offset').map (acts ++ ·) := by
  refine ⟨?_, ?_⟩
  · obtain ⟨m, ms', rfl⟩ := List.exists_cons_of_ne_nil nonempty
    have some_ : 1 ≤ (encodeAll (m :: ms')).length := by
      have := encode_length_ge m
      simp [encodeAll]
      omega
    obtain ⟨acts, run⟩ := messageParsing_terminates context mem _ some_
    exact ⟨acts, run, parsingLoop_encodeAll context mem noError (m :: ms') 0 0 _ holds some_ (by omega) (by omega) run⟩
  · intro context mem len pass offset
    by_cases dispatched : Dispatched context mem pass offset
    · by_cases inside : offset + advance mem offset < len
      · refine .inr ⟨passActs context mem offset, offset + advance mem offset, ?_, inside, fun fuel => ?_⟩
        · have := advance_ge context mem dispatched
          omega
        · rw [parsingLoop_dispatched context mem len fuel dispatched, if_pos inside]
      · refine .inl ⟨passActs context mem offset, fun fuel => ?_⟩
        rw [parsingLoop_dispatched context mem len fuel dispatched, if_neg inside]
    · obtain ⟨acts, stopped, _⟩ := parsingLoop_stops context mem len dispatched
      exact .inl ⟨acts, stopped⟩

end

/-- An event, a write of three bytes and a register response. -/
def threeMessages : List Record :=
  [.memoryWrite 0x00001002 0 0 (List.replicate 16 7) (by decide) (by decide) (by decide) (by decide),
   .memoryWrite 0x01000302 0x00200000 0 [1, 2, 3] (by decide) (by decide) (by decide) (by decide),
   .registerResponse 0x20 0 0 5 (by decide)]

theorem messageParsing_encodeAll_three :
    ∃ acts, messageParsing working (bytesOf (encodeAll threeMessages)) 60 = some acts ∧
      calls acts = [(.eventTrb, 0), (.memoryWriteCompletion, 28), (.registerReadCompletion, 44)] :=
  (messageParsing_encodeAll working (bytesOf (encodeAll threeMessages)) (fun _ => Int.le_refl 0) threeMessages
    (by simp [threeMessages]) (fun i inside => by rw [bytesOf, Nat.zero_add, List.getD_eq_getElem _ _ inside])).1

end Ehub.Message
