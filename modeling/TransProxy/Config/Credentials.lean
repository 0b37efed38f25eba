import TransProxy.Config.Values
import TransProxy.Dns.ProxyUrl
import TransProxy.Library.Fields
import TransProxy.Tunnel.Socks5

/-!
# The way of the credentials

From the URL on the command line to the SOCKS5 authentication request and to the URL of
the HTTP client.
-/
namespace TransProxy.Config
open Library Net Tunnel Dns

/-- An authentication request: version 1, then user name and password. -/
def readAuthRequest : Bytes → Option (String × String × Bytes)
  | 0x01 :: input => do
    let (username, input) ← readField input
    let (password, rest) ← readField input
    let username ← fromUtf8 username
    let password ← fromUtf8 password
    some (username, password, rest)
  | _ => none

/-- A URL with credentials that can be cut into its parts in one way only: nothing ends the
authority early, one `@` stands before the host and one `:` between the credentials. -/
def ReadsAs (url : String) (user password host : List Char) : Prop :=
  ∃ authority userinfo, stripPrefix "socks5://" url = some authority ∧
    (∀ c ∈ authority.toList, c ∉ ['/', '?', '#', '\\']) ∧
    splitOnce '@' authority.toList = some (userinfo, host) ∧
    rsplitOnce '@' authority.toList = some (userinfo, host) ∧
    splitOnce ':' userinfo = some (user, password) ∧
    rsplitOnce ':' userinfo = some (user, password)

variable {username password address : String} {env : Env} {addr : SocketAddr}

def CredentialLength (value : String) : Prop :=
  0 < (strBytes value).length ∧ (strBytes value).length ≤ 255

theorem validateSocks5Credential_ok {value : String} (h : CredentialLength value) (label : String) :
    validateSocks5Credential label value = .ok () := by
  rw [validateSocks5Credential, if_neg (by have := h.1; omega), if_neg (by have := h.2; omega)]

theorem credentialLength_of_ok {label value : String}
    (h : validateSocks5Credential label value = .ok ()) : CredentialLength value := by
  simp only [validateSocks5Credential] at h
  split_ifs at h with hempty hlong
  exact ⟨Nat.pos_of_ne_zero hempty, Nat.not_lt.mp hlong⟩

theorem exists_of_bind_eq_ok {ε α β : Type} {x : Except ε α} {f : α → Except ε β} {b : β}
    (h : x >>= f = .ok b) : ∃ a, x = .ok a ∧ f a = .ok b := by
  cases x with
  | error e => cases h
  | ok a => exact ⟨a, rfl, h⟩

/-- Credentials that are read have the length to be sent. -/
theorem credentialLength_of_parseUserinfo {rest addrPart : String}
    (h : parseUserinfo rest = .ok (.usernamePassword username password, addrPart)) :
    CredentialLength username ∧ CredentialLength password := by
  unfold parseUserinfo at h
  cases hat : rsplitOnce '@' rest.toList with
  | none => simp [hat] at h
  | some parts =>
    obtain ⟨userinfo, addr⟩ := parts
    cases hcolon : splitOnce ':' userinfo with
    | none => simp [hat, hcolon] at h
    | some credentials =>
      obtain ⟨user, pass⟩ := credentials
      simp only [hat, hcolon] at h
      obtain ⟨_, huser, h⟩ := exists_of_bind_eq_ok h
      obtain ⟨_, hpass, h⟩ := exists_of_bind_eq_ok h
      obtain ⟨hauth, _⟩ := Prod.mk.inj (Except.ok.inj h)
      obtain ⟨rfl, rfl⟩ := ProxyAuth.usernamePassword.inj hauth
      exact ⟨credentialLength_of_ok huser, credentialLength_of_ok hpass⟩

theorem validateSocks5AuthField_ok {value : String} (h : CredentialLength value) (label : String) :
    validateSocks5AuthField label value = .ok () := by
  rw [validateSocks5AuthField, maxSocks5FieldLen, if_neg (by have := h.1; omega),
    if_neg (by have := h.2; omega)]

/-- The last `@` and the first `:` are the separators. -/
theorem parseUserinfo_ok (hcolon : ':' ∉ username.toList) (huser : CredentialLength username)
    (hpass : CredentialLength password) (hat : '@' ∉ address.toList) :
    parseUserinfo (username ++ ":" ++ password ++ "@" ++ address) =
      .ok (.usernamePassword username password, address) := by
  have hlist : (username ++ ":" ++ password ++ "@" ++ address).toList =
      (username.toList ++ ':' :: password.toList) ++ '@' :: address.toList := by
    simp [List.append_assoc]
  rw [parseUserinfo, hlist, rsplitOnce_append hat]
  simp only [splitOnce_append hcolon, String.ofList_toList, validateSocks5Credential_ok huser,
    validateSocks5Credential_ok hpass]
  rfl

theorem fromStr_credentials (hcolon : ':' ∉ username.toList) (huser : CredentialLength username)
    (hpass : CredentialLength password) (hat : '@' ∉ address.toList)
    (haddr : parseUpstreamAddr env address = .ok addr) :
    UpstreamProxy.fromStr env ("socks5://" ++ username ++ ":" ++ password ++ "@" ++ address) =
      .ok { protocol := .socks5 (.usernamePassword username password), addr } := by
  have hstrip : stripPrefix "socks5://"
      ("socks5://" ++ username ++ ":" ++ password ++ "@" ++ address) =
        some (username ++ ":" ++ password ++ "@" ++ address) :=
    stripPrefix_eq_some_iff.mpr (by simp only [String.append_assoc])
  rw [UpstreamProxy.fromStr, hstrip]
  simp only [parseUserinfo_ok hcolon huser hpass hat]
  change ((parseUpstreamAddr env address).mapError _ >>= fun addr => Except.ok
    (UpstreamProxy.mk (.socks5 (.usernamePassword username password)) addr)) = _
  rw [haddr]
  rfl

theorem buildSocks5AuthRequest_ok (huser : CredentialLength username)
    (hpass : CredentialLength password) :
    buildSocks5AuthRequest username password =
      .ok ([0x01, UInt8.ofNat (strBytes username).length] ++ strBytes username ++
        [UInt8.ofNat (strBytes password).length] ++ strBytes password) := by
  rw [buildSocks5AuthRequest, validateSocks5AuthField_ok huser, validateSocks5AuthField_ok hpass]
  rfl

/-- Neither length is cut to its low byte. -/
theorem readAuthRequest_build (huser : CredentialLength username)
    (hpass : CredentialLength password) :
    readAuthRequest ([0x01, UInt8.ofNat (strBytes username).length] ++ strBytes username ++
      [UInt8.ofNat (strBytes password).length] ++ strBytes password) =
        some (username, password, []) := by
  have hread : readField (UInt8.ofNat (strBytes username).length :: (strBytes username ++
      (UInt8.ofNat (strBytes password).length :: strBytes password))) =
        some (strBytes username, UInt8.ofNat (strBytes password).length :: strBytes password) :=
    readField_append (Nat.lt_succ_of_le huser.2) _
  have hrest : readField (UInt8.ofNat (strBytes password).length :: strBytes password) =
      some (strBytes password, []) := by
    have happend := readField_append (Nat.lt_succ_of_le hpass.2) []
    rwa [List.append_nil] at happend
  have hutf8 : ∀ value : String, fromUtf8 (strBytes value) = some value := fun value =>
    fromUtf8_eq_some_iff.mpr rfl
  simp only [List.cons_append, List.nil_append, List.append_assoc, readAuthRequest, hread, hrest,
    hutf8, Option.bind_eq_bind, Option.bind_some]

/-- Encoded credentials hold no delimiter, and a display of an address none of those that
matter behind the `@`. -/
theorem readsAs_dohProxyUrl (username password : String) (addr : SocketAddr) :
    ReadsAs (dohProxyUrl { protocol := .socks5 (.usernamePassword username password), addr })
      (percentEncodeUserinfo username).toList (percentEncodeUserinfo password).toList
      addr.display.toList := by
  have hencoded : ∀ (value : String) (c : Char), IsDelimiter c →
      c ∉ (percentEncodeUserinfo value).toList := fun value c hc hmem =>
    not_isDelimiter_of_mem hmem hc
  have hdisplay : ∀ c ∈ ['@', '/', '?', '#', '\\'], c ∉ addr.display.toList := by
    have hother : ∀ c ∈ ['@', '/', '?', '#', '\\'], ¬ (IsAddrChar c ∨ c ∈ ['[', ']', '%']) := by
      unfold IsAddrChar
      exact List.all_iff_forall_prop.mp (by decide)
    exact fun c hc hmem => hother c hc (SocketAddr.mem_display hmem)
  have hlist : (percentEncodeUserinfo username ++ ":" ++ percentEncodeUserinfo password ++ "@" ++
      addr.display).toList = ((percentEncodeUserinfo username).toList ++ ':' ::
        (percentEncodeUserinfo password).toList) ++ '@' :: addr.display.toList := by
    simp [List.append_assoc]
  have hat : '@' ∉ (percentEncodeUserinfo username).toList ++ ':' ::
      (percentEncodeUserinfo password).toList := by
    simp [hencoded _ '@' (by decide)]
  refine ⟨percentEncodeUserinfo username ++ ":" ++ percentEncodeUserinfo password ++ "@" ++
    addr.display, (percentEncodeUserinfo username).toList ++ ':' ::
      (percentEncodeUserinfo password).toList, ?_, ?_, ?_, ?_, ?_, ?_⟩
  · exact stripPrefix_eq_some_iff.mpr (by simp only [dohProxyUrl, String.append_assoc])
  · have hends : ∀ c ∈ ['/', '?', '#', '\\'], IsDelimiter c ∧ c ≠ ':' ∧ c ≠ '@' ∧
        c ∈ ['@', '/', '?', '#', '\\'] :=
      List.all_iff_forall_prop.mp (by decide)
    intro c hc hmem
    obtain ⟨hdelimiter, hcolon, hne, hend⟩ := hends c hmem
    rw [hlist] at hc
    simp [hencoded _ c hdelimiter, hcolon, hne, hdisplay c hend] at hc
  · rw [hlist]
    exact splitOnce_append hat _
  · rw [hlist]
    exact rsplitOnce_append (hdisplay '@' (by decide)) _
  · exact splitOnce_append (hencoded _ ':' (by decide)) _
  · exact rsplitOnce_append (hencoded _ ':' (by decide)) _

/-- The credentials that a URL is written with are those of the configuration, of the
authentication request and of the URL for the HTTP client. -/
theorem credentials_survive (hcolon : ':' ∉ username.toList) (huser : CredentialLength username)
    (hpass : CredentialLength password) (hat : '@' ∉ address.toList)
    (haddr : parseUpstreamAddr env address = .ok addr) :
    ∃ proxy, UpstreamProxy.fromStr env
        ("socks5://" ++ username ++ ":" ++ password ++ "@" ++ address) = .ok proxy ∧
      proxy = { protocol := .socks5 (.usernamePassword username password), addr } ∧
      (∃ request, buildSocks5AuthRequest username password = .ok request ∧
        readAuthRequest request = some (username, password, [])) ∧
      ∃ user pass, ReadsAs (dohProxyUrl proxy) user pass addr.display.toList ∧
        percentDecode user = some (strBytes username) ∧
        percentDecode pass = some (strBytes password) :=
  ⟨_, fromStr_credentials hcolon huser hpass hat haddr, rfl,
    ⟨_, buildSocks5AuthRequest_ok huser hpass, readAuthRequest_build huser hpass⟩,
    _, _, readsAs_dohProxyUrl username password addr, percentDecode_userinfo username,
    percentDecode_userinfo password⟩

theorem credentials_survive_separators :
    ∃ proxy, UpstreamProxy.fromStr { lookupHost := fun _ _ => .ok [], ifaddrs := none }
        ("socks5://" ++ "u@er" ++ ":" ++ "p@:%ü" ++ "@" ++ "127.0.0.1:1080") = .ok proxy ∧
      proxy = { protocol := .socks5 (.usernamePassword "u@er" "p@:%ü")
                addr := .v4 (.new 127 0 0 1) 1080 } ∧
      (∃ request, buildSocks5AuthRequest "u@er" "p@:%ü" = .ok request ∧
        readAuthRequest request = some ("u@er", "p@:%ü", [])) ∧
      ∃ user pass, ReadsAs (dohProxyUrl proxy) user pass
          (SocketAddr.display (.v4 (.new 127 0 0 1) 1080)).toList ∧
        percentDecode user = some (strBytes "u@er") ∧ percentDecode pass = some (strBytes "p@:%ü") :=
  credentials_survive (by decide) ⟨by decide, by decide⟩ ⟨by decide, by decide⟩ (by decide)
    (by rw [parseUpstreamAddr]; decide)

end TransProxy.Config
