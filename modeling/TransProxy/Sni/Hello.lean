import TransProxy.Sni.ClientHello

/-!
# The format of a ClientHello

Server names, extensions and the message in its record, each with its bytes on the wire. The
lengths that a field announces are part of its type, so every value can be sent. The parser
finds in these bytes the name that stands first.
-/
namespace TransProxy.Sni
open Library

/-- A name of any type in a server name list. -/
structure NameEntry where
  nameType : UInt8
  name : Bytes
  short : name.length < 65536

def encodeLength (n : ℕ) : Bytes := u16ToBeBytes (UInt16.ofNat n)

def NameEntry.encode (e : NameEntry) : Bytes := e.nameType :: (encodeLength e.name.length ++ e.name)

def encodeNames (names : List NameEntry) : Bytes := names.flatMap NameEntry.encode

/-- An extension of a ClientHello: a server name list, or any data under another type. -/
inductive Extension where
  | serverName (names : List NameEntry) (fits : (encodeNames names).length + 2 < 65536)
  | other (extType : UInt16) (data : Bytes) (isOther : extType ≠ 0) (fits : data.length < 65536)

def Extension.extType : Extension → UInt16
  | .serverName _ _ => 0
  | .other extType _ _ _ => extType

def Extension.data : Extension → Bytes
  | .serverName names _ => encodeLength (encodeNames names).length ++ encodeNames names
  | .other _ data _ _ => data

def Extension.encode (e : Extension) : Bytes :=
  u16ToBeBytes e.extType ++ (encodeLength e.data.length ++ e.data)

def encodeExtensions (exts : List Extension) : Bytes := exts.flatMap Extension.encode

/-- The extensions of a message, which may have none, not even the length of them. -/
structure ExtensionBlock where
  exts : List Extension
  fits : (encodeExtensions exts).length < 65536

def ExtensionBlock.encode (block : ExtensionBlock) : Bytes :=
  encodeLength (encodeExtensions block.exts).length ++ encodeExtensions block.exts

/-- What a client says first. -/
structure ClientHello where
  version : UInt16
  random : Bytes
  sessionId : Bytes
  cipherSuites : Bytes
  compression : Bytes
  block : Option ExtensionBlock
  randomLength : random.length = 32
  sessionIdShort : sessionId.length < 256
  cipherSuitesShort : cipherSuites.length < 65536
  compressionShort : compression.length < 256

def encodeLength8 (n : ℕ) : Bytes := [UInt8.ofNat n]

def ClientHello.body (m : ClientHello) : Bytes :=
  u16ToBeBytes m.version ++ (m.random ++
    (encodeLength8 m.sessionId.length ++ m.sessionId ++
      (encodeLength m.cipherSuites.length ++ m.cipherSuites ++
        (encodeLength8 m.compression.length ++ m.compression ++
          (m.block.map ExtensionBlock.encode).getD []))))

def encodeLength24 (n : ℕ) : Bytes :=
  [UInt8.ofNat (n / 65536), UInt8.ofNat (n / 256), UInt8.ofNat n]

def ClientHello.handshake (m : ClientHello) : Bytes :=
  tlsHandshakeClientHello :: (encodeLength24 m.body.length ++ m.body)

/-- A ClientHello in a record of its own. -/
structure HelloRecord where
  recordVersion : UInt16
  hello : ClientHello
  fits : hello.handshake.length < 65536

def HelloRecord.encode (r : HelloRecord) : Bytes :=
  tlsRecordHandshake :: (u16ToBeBytes r.recordVersion ++
    (encodeLength r.hello.handshake.length ++ r.hello.handshake))

def hostName (names : List NameEntry) : Option String :=
  (names.find? (fun e => e.nameType == sniHostNameType)).bind (fun e => fromUtf8 e.name)

def Extension.nameList : Extension → Option (List NameEntry)
  | .serverName names _ => some names
  | .other _ _ _ _ => none

def serverName (exts : List Extension) : Option String :=
  (exts.findSome? Extension.nameList).bind hostName

def HelloRecord.serverName (r : HelloRecord) : Option String :=
  Sni.serverName ((r.hello.block.map ExtensionBlock.exts).getD [])

section Walk
variable {w : Window} {pos : ℕ} {rest : Bytes}

theorem u16_encodeLength {n : ℕ} (hn : n < 65536) (h : w.Holds pos (encodeLength n ++ rest))
    (hpos : pos + 2 ≤ w.stop) : w.u16 pos hpos = n := by
  rw [h.u16, UInt16.toNat_ofNat', Nat.mod_eq_of_lt hn]

@[simp] theorem length_encodeLength (n : ℕ) : (encodeLength n).length = 2 := rfl

@[simp] theorem NameEntry.length_encode (e : NameEntry) :
    e.encode.length = 3 + e.name.length := by
  simp only [NameEntry.encode, List.length_cons, List.length_append, length_encodeLength]
  omega

/-- One entry of a name list: its name is the result, or the walk goes on behind it. -/
theorem sniNames_entry {e : NameEntry} (h : w.Holds pos (e.encode ++ rest)) :
    sniNames w pos = if e.nameType = sniHostNameType then fromUtf8 e.name
      else sniNames w (pos + e.encode.length) := by
  have hentry := h.left
  have hle := hentry.le_stop
  rw [e.length_encode] at hle
  have hpos : pos + 3 ≤ w.stop := by omega
  have htype : w.byte pos (by omega) = e.nameType := hentry.byte _
  have hfield : w.Holds (pos + 1) (encodeLength e.name.length ++ e.name) :=
    hentry.right (a := [e.nameType])
  have hlen : w.u16 (pos + 1) hpos = e.name.length := u16_encodeLength e.short hfield hpos
  have hbytes : w.bytes (pos + 3) (pos + 3 + e.name.length) = e.name := hfield.right.bytes_eq
  rw [sniNames, dif_pos hpos]
  simp only [htype, hlen]
  by_cases hhost : e.nameType = sniHostNameType
  · rw [if_pos ⟨hhost, by omega⟩, if_pos hhost, hbytes]
  · rw [if_neg (fun hboth => hhost hboth.1), if_neg hhost, e.length_encode, Nat.add_assoc]

theorem hostName_cons (e : NameEntry) (names : List NameEntry) : hostName (e :: names) =
    if e.nameType = sniHostNameType then fromUtf8 e.name else hostName names := by
  rw [hostName, List.find?_cons]
  by_cases hhost : e.nameType = sniHostNameType
  · rw [if_pos hhost, hhost]
    rfl
  · rw [if_neg hhost, beq_false_of_ne hhost]
    rfl

theorem sniNames_holds {names : List NameEntry} (h : w.Holds pos (encodeNames names))
    (hstop : w.stop = pos + (encodeNames names).length) : sniNames w pos = hostName names := by
  induction names generalizing pos with
  | nil =>
    have hend : w.stop = pos := hstop
    rw [sniNames, dif_neg (by omega)]
    rfl
  | cons e names ih =>
    have hsplit : encodeNames (e :: names) = e.encode ++ encodeNames names := rfl
    rw [hsplit] at h hstop
    rw [List.length_append, ← Nat.add_assoc] at hstop
    rw [sniNames_entry h, hostName_cons, ih h.right hstop]

/-- The extension that a client sends with a list of names. -/
theorem parseSniExtension_data {names : List NameEntry}
    (fits : (encodeNames names).length + 2 < 65536) :
    parseSniExtension (encodeLength (encodeNames names).length ++ encodeNames names) =
      hostName names := by
  have hwhole := Window.Holds.whole (encodeLength (encodeNames names).length ++ encodeNames names)
  have hle : ¬ (encodeLength (encodeNames names).length ++ encodeNames names).length < 2 := by
    rw [List.length_append, length_encodeLength]
    omega
  have hlen := u16_encodeLength (by omega) hwhole (Nat.le_of_not_lt hle)
  have hnames : (Window.whole _).Holds 2 (encodeNames names) := hwhole.right
  rw [parseSniExtension, dif_neg hle]
  simp only [hlen]
  exact sniNames_holds hnames.clamp hnames.stop_clamp

@[simp] theorem Extension.length_encode (e : Extension) :
    e.encode.length = 4 + e.data.length := by
  simp only [Extension.encode, List.length_append, length_encodeLength, u16ToBeBytes,
    List.length_cons, List.length_nil]
  omega

theorem Extension.data_short (e : Extension) : e.data.length < 65536 := by
  cases e with
  | serverName names fits =>
    rw [Extension.data, List.length_append, length_encodeLength, Nat.add_comm]
    exact fits
  | other extType data isOther fits => exact fits

/-- One extension: the server name ends the walk, any other is stepped over. -/
theorem sniExtensions_extension {e : Extension} (h : w.Holds pos (e.encode ++ rest)) :
    sniExtensions w pos = if e.extType = 0 then parseSniExtension e.data
      else sniExtensions w (pos + e.encode.length) := by
  have hext := h.left
  have hle := hext.le_stop
  rw [e.length_encode] at hle
  have hpos : pos + 4 ≤ w.stop := by omega
  have htype : w.u16 pos (by omega) = e.extType.toNat := hext.u16 _
  have hfield : w.Holds (pos + 2) (encodeLength e.data.length ++ e.data) := hext.right
  have hlen : w.u16 (pos + 2) hpos = e.data.length := u16_encodeLength e.data_short hfield hpos
  have hbytes : w.bytes (pos + 4) (pos + 4 + e.data.length) = e.data := hfield.right.bytes_eq
  have hmin : min e.data.length (w.stop - (pos + 4)) = e.data.length := by omega
  have hzero : e.extType.toNat = tlsExtServerName ↔ e.extType = 0 := by
    rw [← UInt16.toNat_inj]
    rfl
  rw [sniExtensions, dif_pos hpos]
  simp only [htype, hlen, hmin, hbytes, hzero]
  rw [e.length_encode, Nat.add_assoc]

theorem serverName_cons (e : Extension) (exts : List Extension) : serverName (e :: exts) =
    if e.extType = 0 then parseSniExtension e.data else serverName exts := by
  cases e with
  | serverName names fits =>
    have htype : (Extension.serverName names fits).extType = 0 := rfl
    rw [if_pos htype, Extension.data, parseSniExtension_data fits]
    rfl
  | other extType data isOther fits =>
    have htype : (Extension.other extType data isOther fits).extType ≠ 0 := isOther
    rw [if_neg htype]
    rfl

theorem sniExtensions_holds {exts : List Extension} (h : w.Holds pos (encodeExtensions exts))
    (hstop : w.stop = pos + (encodeExtensions exts).length) :
    sniExtensions w pos = serverName exts := by
  induction exts generalizing pos with
  | nil =>
    have hend : w.stop = pos := hstop
    rw [sniExtensions, dif_neg (by omega)]
    rfl
  | cons e exts ih =>
    have hsplit : encodeExtensions (e :: exts) = e.encode ++ encodeExtensions exts := rfl
    rw [hsplit] at h hstop
    rw [List.length_append, ← Nat.add_assoc] at hstop
    rw [sniExtensions_extension h, serverName_cons, ih h.right hstop]

theorem skipField8_holds {field : Bytes} (hshort : field.length < 256)
    (h : w.Holds pos (encodeLength8 field.length ++ field ++ rest)) :
    skipField8 w pos = some (pos + (encodeLength8 field.length ++ field).length) := by
  have hfield := h.left
  have hle := hfield.le_stop
  rw [List.length_append, encodeLength8, List.length_singleton] at hle ⊢
  have hbyte : w.byte pos (by omega) = UInt8.ofNat field.length := hfield.byte _
  rw [skipField8, dif_pos (by omega), hbyte, UInt8.toNat_ofNat', Nat.mod_eq_of_lt hshort,
    Nat.add_assoc]

theorem skipField16_holds {field : Bytes} (hshort : field.length < 65536)
    (h : w.Holds pos (encodeLength field.length ++ field ++ rest)) :
    skipField16 w pos = some (pos + (encodeLength field.length ++ field).length) := by
  have hfield := h.left
  have hle := hfield.le_stop
  rw [List.length_append, length_encodeLength] at hle ⊢
  have hlen := u16_encodeLength hshort hfield (by omega)
  rw [skipField16, dif_pos (by omega), hlen, Nat.add_assoc]

theorem helloExtensions_holds {block : Option ExtensionBlock}
    (h : w.Holds pos ((block.map ExtensionBlock.encode).getD []))
    (hstop : w.stop = pos + ((block.map ExtensionBlock.encode).getD []).length) :
    helloExtensions w pos = serverName ((block.map ExtensionBlock.exts).getD []) := by
  cases block with
  | none =>
    have hend : w.stop = pos := hstop
    rw [helloExtensions, dif_neg (by omega)]
    rfl
  | some block =>
    have hblock : w.Holds pos block.encode := h
    have hpos : pos + 2 ≤ w.stop := by
      have hle := hblock.le_stop
      rw [ExtensionBlock.encode, List.length_append, length_encodeLength] at hle
      omega
    have hlen := u16_encodeLength block.fits hblock hpos
    have hexts : w.Holds (pos + 2) (encodeExtensions block.exts) := hblock.right
    rw [helloExtensions, dif_pos hpos]
    simp only [hlen]
    exact sniExtensions_holds hexts.clamp hexts.stop_clamp

end Walk

theorem ClientHello.length_handshake (m : ClientHello) :
    m.handshake.length = 4 + m.body.length := by
  simp only [ClientHello.handshake, encodeLength24, List.length_cons, List.length_append,
    List.length_nil]
  omega

theorem ClientHello.length_body_ge (m : ClientHello) : 34 ≤ m.body.length := by
  have hrandom := m.randomLength
  simp only [ClientHello.body, u16ToBeBytes, List.length_append, List.length_cons, List.length_nil,
    hrandom]
  omega

/-- The fields of the message are walked over one by one, up to the extensions. -/
theorem parseHello_holds {w : Window} {m : ClientHello} (h : w.Holds 5 m.handshake)
    (hstop : w.stop = 5 + m.handshake.length) :
    parseHello w = serverName ((m.block.map ExtensionBlock.exts).getD []) := by
  have hlong := m.length_body_ge
  have hlen := m.length_handshake
  have htype : w.byte 5 (by omega) = tlsHandshakeClientHello := h.byte _
  have hbody : w.Holds 9 m.body := h.right (a := tlsHandshakeClientHello :: encodeLength24 _)
  have hrandom : w.Holds 11 _ := hbody.right
  have hsession := hrandom.right
  rw [m.randomLength] at hsession
  have hsuites := hsession.right
  have hcompression := hsuites.right
  have hblock := hcompression.right
  rw [parseHello, dif_neg (by omega), if_neg (by simp [htype]), if_neg (by omega),
    skipField8_holds m.sessionIdShort hsession]
  simp only [Option.bind_eq_bind, Option.bind_some, skipField16_holds m.cipherSuitesShort hsuites,
    skipField8_holds m.compressionShort hcompression]
  refine helloExtensions_holds hblock ?_
  rw [hstop, hlen, ClientHello.body]
  simp only [List.length_append, m.randomLength]
  rw [u16ToBeBytes, List.length_cons, List.length_singleton]
  omega

/-- For every ClientHello in a record, and whatever comes behind the record, the parser finds
the first host name of the first server name extension, if there is one and it is UTF-8. -/
theorem parseSniFromClientHello_encode (r : HelloRecord) (rest : Bytes) :
    parseSniFromClientHello (r.encode ++ rest) = r.serverName := by
  have hrecord := (Window.Holds.whole (r.encode ++ rest)).left
  have hversion : (Window.whole (r.encode ++ rest)).Holds 1 (u16ToBeBytes r.recordVersion ++ _) :=
    hrecord.right (a := [tlsRecordHandshake])
  have hlength : (Window.whole (r.encode ++ rest)).Holds 3 (encodeLength _ ++ _) := hversion.right
  have hhandshake : (Window.whole (r.encode ++ rest)).Holds 5 r.hello.handshake := hlength.right
  have hheader : ¬ (r.encode ++ rest).length < 5 := Nat.not_lt.mpr hhandshake.pos_le
  have htype := hrecord.byte (Nat.lt_of_lt_of_le (by decide : 0 < 5) hhandshake.pos_le)
  have hlen := u16_encodeLength r.fits hlength hhandshake.pos_le
  rw [parseSniFromClientHello, dif_neg hheader]
  simp only [htype, hlen]
  rw [if_neg (by simp)]
  exact parseHello_holds hhandshake.clamp hhandshake.stop_clamp

end TransProxy.Sni
