import TransProxy.Library.Window

/-!
# The server name of a ClientHello

The parser of `sni.rs`. Each level of the message narrows the window to the length that it
announces, as far as there are bytes.
-/
namespace TransProxy.Sni
open Library

def tlsRecordHandshake : UInt8 := 0x16
def tlsHandshakeClientHello : UInt8 := 0x01
def tlsExtServerName : ℕ := 0x0000
def sniHostNameType : UInt8 := 0x00

def sniNames (w : Window) (pos : ℕ) : Option String :=
  if h : pos + 3 ≤ w.stop then
    let nameType := w.byte pos (by omega)
    let nameLen := w.u16 (pos + 1) h
    if nameType = sniHostNameType ∧ pos + 3 + nameLen ≤ w.stop then
      fromUtf8 (w.bytes (pos + 3) (pos + 3 + nameLen))
    else sniNames w (pos + 3 + nameLen)
  else none
termination_by w.stop - pos

def parseSniExtension (data : Bytes) : Option String :=
  if h : data.length < 2 then none
  else
    let w := Window.whole data
    let listLen := w.u16 0 (Nat.le_of_not_lt h)
    sniNames (w.clamp 2 listLen (Nat.le_of_not_lt h)) 2

def sniExtensions (w : Window) (pos : ℕ) : Option String :=
  if h : pos + 4 ≤ w.stop then
    let extType := w.u16 pos (by omega)
    let extLen := w.u16 (pos + 2) h
    if extType = tlsExtServerName then
      parseSniExtension (w.bytes (pos + 4) (pos + 4 + min extLen (w.stop - (pos + 4))))
    else sniExtensions w (pos + 4 + extLen)
  else none
termination_by w.stop - pos

/-- Behind a field whose length is in one byte. -/
def skipField8 (w : Window) (pos : ℕ) : Option ℕ :=
  if h : pos + 1 ≤ w.stop then some (pos + 1 + (w.byte pos h).toNat) else none

/-- Behind a field whose length is in two bytes. -/
def skipField16 (w : Window) (pos : ℕ) : Option ℕ :=
  if h : pos + 2 ≤ w.stop then some (pos + 2 + w.u16 pos h) else none

/-- The extensions of a ClientHello, from their length on. -/
def helloExtensions (w : Window) (pos : ℕ) : Option String :=
  if h : pos + 2 ≤ w.stop then sniExtensions (w.clamp (pos + 2) (w.u16 pos h) h) (pos + 2)
  else none

/-- The handshake message in a record, which begins behind the five bytes of its header:
session id, cipher suites, compression methods and extensions. -/
def parseHello (w : Window) : Option String :=
  if h : w.stop < 5 + 4 then none
  else if w.byte 5 (by omega) ≠ tlsHandshakeClientHello then none
  else if w.stop < 9 + 34 then none
  else do
    let pos ← skipField8 w 43
    let pos ← skipField16 w pos
    let pos ← skipField8 w pos
    helloExtensions w pos

def parseSniFromClientHello (data : Bytes) : Option String :=
  if h : data.length < 5 then none
  else
    let w := Window.whole data
    if w.byte 0 (Nat.lt_of_lt_of_le (by decide) (Nat.le_of_not_lt h)) ≠ tlsRecordHandshake then none
    else
      let recordLen := w.u16 3 (Nat.le_of_not_lt h)
      parseHello (w.clamp 5 recordLen (Nat.le_of_not_lt h))

def recordLength (data : Bytes) : Option ℕ :=
  if h : data.length < 5 then none else some (5 + (Window.whole data).u16 3 (Nat.le_of_not_lt h))

end TransProxy.Sni
