import Gozlib.Stream.Env

/-
  `compress_buffer`, `compress_to_outstream` and `compress_stream` of `gozlib.c`.

  The two `while (true)` and `while (do_compress)` loops may run forever for some behaviours
  of zlib and of the handlers; they take `fuel`, and a run that needs more stops with
  `Stop.outOfFuel`. The level and the memory level passed to `deflateInit2` are not
  modelled: zlib's answer to it is `Env.initCode`.
-/

namespace Gozlib.Stream

open Gozlib.Pool

section Code

variable (cfg : Config) (globalMultipool : Ptr) (env : Env)

/-- `compress_buffer`: one `deflate (&zs, Z_FINISH)` into the caller's buffer. -/
def compressBuffer (windowBits : Int) (input : Ptr) (inputLen : UInt32) (output : Ptr)
    (outputLen : UInt32) : SM UInt64 := do
  let initRes ← zInit env windowBits
  if initRes ≠ zOk then
    setErrorCode initRes
    return 0
  setIn input inputLen.toNat
  setOut output outputLen.toNat
  let defCode ← zCall env zFinish
  let mut outLen ← readW (·.zs.totalOut)
  if defCode ≠ zStreamEnd then
    setErrorCode defCode
    if defCode = zOk then setErrorCode zMemError
    outLen := 0
  zEnd
  return outLen

def zlibCompressBuffer := compressBuffer env maxWbits

def gzipCompressBuffer := compressBuffer env compressGzipWindowBits

/-- `compress_to_outstream`: deflate into the work buffer and hand what it wrote to
    `output_handler`, again while zlib fills the whole buffer. -/
def compressToOutstream (flush : Int) (outputBuf : Ptr) (outputLen : Nat) : Nat → SM Int
  | 0 => stopWith .outOfFuel
  | fuel + 1 => do
    setOut outputBuf outputLen
    let defCode ← zCall env flush
    if defCode = zStreamError then return defCode
    let outstreamLen := outputLen - (← readW (·.zs.availOut))
    if outstreamLen > 0 then
      if (← outputHandler env outputBuf outstreamLen) = 0 then
        return gozlibStreamOutputWriteError
    if (← readW (·.zs.availOut)) > 0 then return defCode
    compressToOutstream flush outputBuf outputLen fuel

/-- The `while (do_compress)` loop of `compress_stream`. -/
def compressLoop (inputBuf outputBuf : Ptr) (inputCap outputCap fuel : Nat) : Nat → SM Unit
  | 0 => stopWith .outOfFuel
  | k + 1 => do
    let n ← inputHandler env inputBuf inputCap
    setIn inputBuf n
    let doCompress := decide (0 < n)
    let flush := if doCompress then zNoFlush else zFinish
    let compCode ← compressToOutstream env flush outputBuf outputCap fuel
    if compCode < zOk then setErrorCode compCode
    else if doCompress then compressLoop inputBuf outputBuf inputCap outputCap fuel k
    else pure ()

/-- `compress_stream`. -/
def compressStream (windowBits : Int) (workInputBufferCap workOutputBufferCap : UInt32)
    (fuel : Nat) : SM UInt64 := do
  let initCode ← zInit env windowBits
  if initCode ≠ zOk then
    setErrorCode initCode
    return 0
  let inputBuf ← poolAllocW cfg globalMultipool workInputBufferCap.toNat
  let outputBuf ← poolAllocW cfg globalMultipool workOutputBufferCap.toNat
  compressLoop env inputBuf outputBuf workInputBufferCap.toNat workOutputBufferCap.toNat fuel fuel
  let compressedLen ← readW (·.zs.totalOut)
  zEnd
  poolFreeW cfg inputBuf
  poolFreeW cfg outputBuf
  return compressedLen

def zlibCompressStream := compressStream cfg globalMultipool env maxWbits

def gzipCompressStream := compressStream cfg globalMultipool env compressGzipWindowBits

end Code

end Gozlib.Stream
