import LibRtlSdr.ReadAsync
import LibRtlSdr.ResourceLedger
import LibRtlSdr.RtlSdrEnumeration

namespace LibRtlSdr.RtlSdr

open ResourceLedger

/-!
# What a session with a stick acquires and gives back

`rtlsdr_open` acquires one thing after the other and has one exit for its errors, which
gives back only what hangs on the device.  `rtlsdr_read_async` ignores whether its
buffers were allocated, and frees whatever the array of buffers then points to.
-/

/-! ## Source -/

/-- The buffer of a transfer, with the function that allocated it. -/
inductive AsyncBuffer where
  /-- `libusb_dev_mem_alloc`. -/
  | zeroCopy (i : Nat)
  /-- `malloc`. -/
  | userspace (i : Nat)
  deriving DecidableEq

/-- What the library holds. -/
inductive Held where
  /-- The memory of the `rtlsdr_dev_t`. -/
  | device
  | context
  | deviceList
  | handle
  | interface
  /-- The kernel driver while it is detached. -/
  | detachedDriver
  /-- `dev->xfer`. -/
  | transferArray
  /-- `dev->xfer_buf`. -/
  | bufferArray
  | transfer (i : Nat)
  | buffer (buffer : AsyncBuffer)
  deriving DecidableEq

instance : Nonempty Held :=
  ⟨.device⟩

/-- The options of the build that matter here. -/
structure BuildOptions where
  /-- `DETACH_KERNEL_DRIVER`. -/
  detachKernelDriver : Bool
  /-- `ENABLE_ZEROCOPY`, with a `libusb` that has it. -/
  enableZerocopy : Bool

/-! ### `rtlsdr_open` and `rtlsdr_close` -/

/-- What `rtlsdr_open` is answered. -/
structure OpenAnswers where
  malloc : Bool
  /-- `libusb_init`. -/
  init : Int32
  /-- `libusb_get_device_list`; none for an error. -/
  deviceList : Option (List Descriptor)
  /-- `libusb_open` of the device at a place of the list. -/
  openDevice : Nat → Int32
  /-- `libusb_kernel_driver_active` is 1. -/
  driverActive : Bool
  /-- `libusb_detach_kernel_driver` is 0. -/
  detach : Bool
  /-- `libusb_claim_interface`. -/
  claim : Int32

/-- What `rtlsdr_open` returns, and `driver_active` of the device that it hands out. -/
structure OpenResult where
  result : Int32
  outDev : Option Bool
  accesses : List (Access Held)

/-- The label `err`. -/
def openErr (handle : Bool) : List (Access Held) :=
  (if handle then [.release .handle] else []) ++ [.release .context, .release .device]

/--
`rtlsdr_open`; from the claimed interface on it only sends transfers, whose outcomes
it ignores.
-/
def rtlsdrOpen
    (build : BuildOptions)
    (answers : OpenAnswers)
    (index : UInt32) :
    OpenResult :=
  if ¬ answers.malloc then
    ⟨-12, none, []⟩
  else if answers.init < 0 then
    ⟨-1, none, [.acquire .device, .use (some .device), .release .device]⟩
  else
    let begun : List (Access Held) :=
      [.acquire .device, .use (some .device), .acquire .context] ++
        (if answers.deviceList.isSome then [.acquire .deviceList] else [])
    match openLoop index 0 0 (answers.deviceList.getD []) with
    | none =>
        ⟨-1, none, begun ++ openErr false⟩
    | some place =>
        let r := answers.openDevice place
        if r < 0 then
          ⟨r, none, begun ++ [.release .deviceList] ++ openErr false⟩
        else
          let opened := begun ++ [.acquire .handle, .release .deviceList]
          if answers.driverActive ∧ build.detachKernelDriver ∧ ¬ answers.detach then
            ⟨r, none, opened ++ openErr true⟩
          else
            let detached :=
              opened ++
                (if answers.driverActive ∧ build.detachKernelDriver then
                  [.acquire .detachedDriver]
                else
                  [])
            if answers.claim < 0 then
              ⟨answers.claim, none, detached ++ openErr true⟩
            else
              ⟨0, some answers.driverActive,
                detached ++ [.acquire .interface, .use (some .handle)]⟩

/-- What `rtlsdr_close` finds and is answered. -/
structure CloseAnswers where
  devLost : Bool
  /-- `libusb_attach_kernel_driver` is 0. -/
  attach : Bool

/-- `rtlsdr_close` of a device that does not stream. -/
def rtlsdrClose
    (build : BuildOptions)
    (answers : CloseAnswers)
    (driverActive : Bool) :
    List (Access Held) :=
  [.use (some .device)] ++
    (if answers.devLost then [] else [.use (some .handle)]) ++
    [.release .interface] ++
    (if build.detachKernelDriver ∧ driverActive ∧ answers.attach then
      [.release .detachedDriver]
    else
      []) ++
    [.release .handle, .release .context, .release .device]

/-! ### `rtlsdr_read_async` -/

/-- `libusb_dev_mem_alloc`: a null pointer, zeroed memory, or memory with the bug. -/
inductive DevMem where
  | refused
  | zeroed
  | garbage
  deriving DecidableEq

/-- What `rtlsdr_read_async` is called with and answered. -/
structure StreamAnswers where
  bufNum : UInt32
  /-- `malloc` of `dev->xfer`. -/
  transferArray : Bool
  /-- `libusb_alloc_transfer`. -/
  transfer : Nat → Bool
  /-- `malloc` of `dev->xfer_buf`. -/
  bufferArray : Bool
  /-- `libusb_dev_mem_alloc`. -/
  devMem : Nat → DevMem
  /-- `malloc` of a buffer. -/
  userspace : Nat → Bool
  /-- `libusb_submit_transfer`. -/
  submit : Nat → Int32

namespace StreamAnswers

/-- `xfer_buf_num`. -/
def xferBufNum (answers : StreamAnswers) : Nat :=
  if 0 < answers.bufNum then answers.bufNum.toNat else ReadAsync.defaultBufNumber

/-- `dev->xfer`. -/
def xfer (answers : StreamAnswers) : Option Held :=
  if answers.transferArray then some .transferArray else none

/-- `dev->xfer[i]`. -/
def xferAt (answers : StreamAnswers) (i : Nat) : Option Held :=
  if answers.transfer i then some (.transfer i) else none

/-- The array of buffers. -/
def xferBuf (answers : StreamAnswers) : Option Held :=
  if answers.bufferArray then some .bufferArray else none

/-- `_rtlsdr_alloc_async_buffers` up to the buffers themselves. -/
def allocTransfers (answers : StreamAnswers) : List (Access Held) :=
  answers.xfer.toList.map .acquire ++
    ((List.range answers.xferBufNum).flatMap fun i =>
      (answers.xferAt i).toList.map .acquire ++ [.use answers.xfer]) ++
    answers.xferBuf.toList.map .acquire ++ [.use answers.xferBuf]

/-- How a loop over the buffers ends: how many it has got, and whether these are all. -/
structure Buffers where
  count : Nat
  whole : Bool
  accesses : List (Access Held)

/-- The loop over `libusb_dev_mem_alloc` at index `i`. -/
def zeroCopyLoop (answers : StreamAnswers) : (i left : Nat) → Buffers
  | i, 0 =>
      ⟨i, true, []⟩
  | i, left + 1 =>
      let got : List (Access Held) :=
        [.acquire (.buffer (.zeroCopy i)), .use (some (.buffer (.zeroCopy i)))]
      match answers.devMem i with
      | .refused =>
          ⟨i, false, []⟩
      | .garbage =>
          ⟨i + 1, false, got⟩
      | .zeroed =>
          let rest := zeroCopyLoop answers (i + 1) left
          ⟨rest.count, rest.whole, got ++ rest.accesses⟩

/-- The loop over `malloc` at index `i`. -/
def userspaceLoop (answers : StreamAnswers) : (i left : Nat) → Buffers
  | i, 0 =>
      ⟨i, true, []⟩
  | i, left + 1 =>
      if answers.userspace i then
        let rest := userspaceLoop answers (i + 1) left
        ⟨rest.count, rest.whole, .acquire (.buffer (.userspace i)) :: rest.accesses⟩
      else
        ⟨i, false, []⟩

/-- The zero-copy buffers, which are freed again when they are not all there. -/
def zeroCopied (answers : StreamAnswers) (build : BuildOptions) : Buffers :=
  if build.enableZerocopy then
    let loop := answers.zeroCopyLoop 0 answers.xferBufNum
    if loop.whole then
      loop
    else
      ⟨loop.count, false,
        loop.accesses ++
          (List.range answers.xferBufNum).flatMap fun i =>
            if i < loop.count then [.release (.buffer (.zeroCopy i))] else []⟩
  else
    ⟨0, false, []⟩

/-- The buffers in userspace, which are allocated unless `use_zerocopy` is set. -/
def userspaced (answers : StreamAnswers) (build : BuildOptions) : Buffers :=
  if (answers.zeroCopied build).whole then
    ⟨0, true, []⟩
  else
    answers.userspaceLoop 0 answers.xferBufNum

/-- `dev->xfer_buf[i]`: the pointers of freed zero-copy buffers stay until they are replaced. -/
def xferBufAt
    (answers : StreamAnswers)
    (build : BuildOptions)
    (i : Nat) :
    Option AsyncBuffer :=
  let zeroCopied := answers.zeroCopied build
  let userspaced := answers.userspaced build
  if zeroCopied.whole then
    some (.zeroCopy i)
  else if i < userspaced.count then
    some (.userspace i)
  else if i = userspaced.count then
    none
  else if i < zeroCopied.count then
    some (.zeroCopy i)
  else
    none

/-- The loop that fills and submits the transfers at index `i`; an error ends it. -/
def submitLoop
    (answers : StreamAnswers)
    (build : BuildOptions) :
    (i left : Nat) → List (Access Held)
  | _, 0 =>
      []
  | i, left + 1 =>
      .use (answers.xferAt i) ::
        ((answers.xferBufAt build i).toList.map fun buffer =>
          .use (some (.buffer buffer))) ++
        if answers.submit i < 0 then [] else submitLoop answers build (i + 1) left

/-- `libusb_dev_mem_free` or `free`: a buffer of the other kind is not known to them. -/
def freed (useZerocopy : Bool) : AsyncBuffer → Access Held
  | .zeroCopy i =>
      if useZerocopy then .release (.buffer (.zeroCopy i)) else .use none
  | .userspace i =>
      if useZerocopy then .use none else .release (.buffer (.userspace i))

/-- `_rtlsdr_free_async_buffers`. -/
def freeAsyncBuffers
    (answers : StreamAnswers)
    (build : BuildOptions) :
    List (Access Held) :=
  ((List.range answers.xferBufNum).flatMap fun i =>
      .use answers.xfer :: (answers.xferAt i).toList.map .release) ++
    answers.xfer.toList.map .release ++
    ((List.range answers.xferBufNum).flatMap fun i =>
      .use answers.xferBuf ::
        (answers.xferBufAt build i).toList.map (freed (answers.zeroCopied build).whole)) ++
    answers.xferBuf.toList.map .release

/-- `rtlsdr_read_async`; between the submissions and the end nothing is allocated. -/
def readAsync
    (answers : StreamAnswers)
    (build : BuildOptions) :
    List (Access Held) :=
  answers.allocTransfers ++
    (answers.zeroCopied build).accesses ++
    (answers.userspaced build).accesses ++
    answers.submitLoop build 0 answers.xferBufNum ++
    answers.freeAsyncBuffers build

end StreamAnswers

/-- A program that opens a stick, reads from it any number of times and closes it. -/
structure StickSession where
  build : BuildOptions
  index : UInt32
  start : OpenAnswers
  streams : List StreamAnswers
  finish : CloseAnswers

/-- Without a device that was handed out all calls return at once. -/
def StickSession.accesses (session : StickSession) : List (Access Held) :=
  let opened := rtlsdrOpen session.build session.start session.index
  match opened.outDev with
  | none =>
      opened.accesses
  | some driverActive =>
      opened.accesses ++
        (session.streams.flatMap fun answers => answers.readAsync session.build) ++
        rtlsdrClose session.build session.finish driverActive

end LibRtlSdr.RtlSdr
