import Compy.Rtsp.Message

/-!
# The context of a request

`context.c`, without the writer: a response is what `compy_respond` serialises.
-/

set_option autoImplicit false

namespace Compy.Rtsp

structure Context where
  cseq : UInt32
  headerMap : HeaderMap
  body : List UInt8

namespace Context

def new (cseq : UInt32) : Context := { cseq := cseq, headerMap := .empty, body := [] }

/-- The header with the formatted value. -/
def header (ctx : Context) (key value : List UInt8)
    (room : ctx.headerMap.headers.length < headerMapCapacity) : Context :=
  { ctx with headerMap := ctx.headerMap.append { key := key, value := value } room }

def respond (ctx : Context) (code : UInt16) (reason : List UInt8) : Response where
  startLine := { version := { major := 1, minor := 0 }, code := code, reason := reason }
  headerMap := ctx.headerMap
  body := ctx.body
  cseq := ctx.cseq

end Context

end Compy.Rtsp
