import PsiphonAndroid.Socks.Client

/-!
# The SOCKS5 handshake, seen from outside

What RFC 1928 and RFC 1929 let a client do with a byte stream of the server: `handshake` gives, for the bytes the server has
sent, the bytes the client has sent in turn, its verdict, and how many of the server's bytes belong to the handshake. Nothing
here speaks of buffers, jobs or partial reads; the invariant of `BSocksClient` relates the two.
-/

namespace PsiphonAndroid

open Lib

/-- The hello of RFC 1928: version, number of methods, methods. -/
def helloMessage (auths : List AuthInfo) : Bytes := [5, UInt8.ofNat auths.length] ++ auths.map AuthInfo.authType

/-- The request of RFC 1929: version, user name, password, each after its length. -/
def passwordMessage (username password : Bytes) : Bytes :=
  [1, UInt8.ofNat username.length] ++ username ++ [UInt8.ofNat password.length] ++ password

/-- The CONNECT request of RFC 1928 for a destination. -/
def requestMessage : BAddr → Bytes
  | .ipv4 ip port => [5, 1, 0, 1] ++ be32 ip ++ be16 port
  | .ipv6 ip port => [5, 1, 0, 4] ++ ip.bytes ++ be16 port
  | .none => []

/-- A user name and a password that RFC 1929 can carry. -/
def ValidPassword (username password : Bytes) : Prop :=
  (1 ≤ username.length ∧ username.length ≤ 255) ∧ 1 ≤ password.length ∧ password.length ≤ 255

instance (username password : Bytes) : Decidable (ValidPassword username password) := inferInstanceAs (Decidable (_ ∧ _))

/-- The length of address and port in a reply, by the address type: IPv4 or IPv6. -/
def addressLength (atyp : UInt8) : Option Nat := if atyp = 1 then some 6 else if atyp = 4 then some 18 else none

/-- What the client has sent, which events it has reported and how many bytes of the server it has taken. -/
structure Handshake where
  sent : Bytes
  reported : List SocksEvent
  consumed : Nat
  deriving DecidableEq, Repr

/-- The handshake after authentication: `sent` and `n` bytes before it, `r` the stream of the server from there on. -/
def requestPhase (dest : BAddr) (sent : Bytes) (n : Nat) (r : Bytes) : Handshake :=
  if r.length < 4 then ⟨sent ++ requestMessage dest, [], n + r.length⟩
  else if byteAt r 0 ≠ 5 ∨ byteAt r 1 ≠ 0 then ⟨sent ++ requestMessage dest, [.error], n + 4⟩
  else
    match addressLength (byteAt r 3) with
    | none => ⟨sent ++ requestMessage dest, [.error], n + 4⟩
    | some len =>
      if r.length < 4 + len then ⟨sent ++ requestMessage dest, [], n + r.length⟩
      else ⟨sent ++ requestMessage dest, [.up], n + 4 + len⟩

/-- The handshake once user name and password were selected. -/
def passwordPhase (dest : BAddr) (sent : Bytes) (n : Nat) (r : Bytes) : Handshake :=
  if r.length < 2 then ⟨sent, [], n + r.length⟩
  else if byteAt r 0 ≠ 1 ∨ byteAt r 1 ≠ 0 then ⟨sent, [.error], n + 2⟩
  else requestPhase dest sent (n + 2) (r.drop 2)

/-- The handshake of a client with the methods `auths` for the destination `dest`, on what the server has sent. -/
def handshake (auths : List AuthInfo) (dest : BAddr) (stream : Bytes) : Handshake :=
  if stream.length < 2 then ⟨helloMessage auths, [], stream.length⟩
  else if byteAt stream 0 ≠ 5 then ⟨helloMessage auths, [.error], 2⟩
  else
    match auths.find? (fun ai => ai.authType = byteAt stream 1) with
    | none => ⟨helloMessage auths, [.error], 2⟩
    | some .none => requestPhase dest (helloMessage auths) 2 (stream.drop 2)
    | some (.password username password) =>
      if ¬ValidPassword username password then ⟨helloMessage auths, [.error], 2⟩
      else passwordPhase dest (helloMessage auths ++ passwordMessage username password) 2 (stream.drop 2)

/-- The messages of the server up to a finished authentication: the selection of an offered method, and for user name and
password a positive reply. The client has the password of the first entry of that method. -/
inductive Authenticated (auths : List AuthInfo) : Bytes → Bytes → Prop where
  | none (h : auths.find? (fun ai => ai.authType = 0) = some .none) : Authenticated auths (helloMessage auths) [5, 0]
  | password {username password : Bytes} (h : auths.find? (fun ai => ai.authType = 2) = some (.password username password))
      (hv : ValidPassword username password) :
      Authenticated auths (helloMessage auths ++ passwordMessage username password) [5, 2, 1, 0]

/-- The bytes of a whole successful handshake: authentication, and a positive reply with its address. -/
def UpStream (auths : List AuthInfo) (c : Bytes) : Prop :=
  ∃ sent auth rsv atyp addr, Authenticated auths sent auth ∧ addressLength atyp = some addr.length ∧
    c = auth ++ [5, 0, rsv, atyp] ++ addr

namespace HandshakeAux

/-- A reply whose bytes are all there. -/
theorem requestPhase_stable {dest : BAddr} {sent : Bytes} {n : Nat} {r : Bytes}
    (h : (requestPhase dest sent n r).reported ≠ []) (r' : Bytes) :
    requestPhase dest sent n (r ++ r') = requestPhase dest sent n r := by
  by_cases h4 : r.length < 4
  · rw [requestPhase, if_pos h4] at h
    exact absurd rfl h
  have h4' : ¬(r ++ r').length < 4 := by rw [List.length_append]; omega
  have e0 := @byteAt_append_left r r' 0 (by omega)
  have e1 := @byteAt_append_left r r' 1 (by omega)
  have e3 := @byteAt_append_left r r' 3 (by omega)
  rw [requestPhase, if_neg h4] at h
  rw [requestPhase, requestPhase, if_neg h4, if_neg h4', e0, e1, e3]
  by_cases hb : byteAt r 0 ≠ 5 ∨ byteAt r 1 ≠ 0
  · rw [if_pos hb, if_pos hb]
  rw [if_neg hb] at h ⊢
  rw [if_neg hb]
  cases hl : addressLength (byteAt r 3) with
  | none => rfl
  | some len =>
    simp only [hl] at h ⊢
    by_cases hs : r.length < 4 + len
    · rw [if_pos hs] at h
      exact absurd rfl h
    · rw [if_neg hs, if_neg (by rw [List.length_append]; omega)]

theorem passwordPhase_stable {dest : BAddr} {sent : Bytes} {n : Nat} {r : Bytes}
    (h : (passwordPhase dest sent n r).reported ≠ []) (r' : Bytes) :
    passwordPhase dest sent n (r ++ r') = passwordPhase dest sent n r := by
  by_cases h2 : r.length < 2
  · rw [passwordPhase, if_pos h2] at h
    exact absurd rfl h
  have h2' : ¬(r ++ r').length < 2 := by rw [List.length_append]; omega
  have e0 := @byteAt_append_left r r' 0 (by omega)
  have e1 := @byteAt_append_left r r' 1 (by omega)
  rw [passwordPhase, if_neg h2] at h
  rw [passwordPhase, passwordPhase, if_neg h2, if_neg h2', e0, e1]
  by_cases hb : byteAt r 0 ≠ 1 ∨ byteAt r 1 ≠ 0
  · rw [if_pos hb, if_pos hb]
  rw [if_neg hb] at h ⊢
  rw [if_neg hb, List.drop_append_of_le_length (by omega), requestPhase_stable h]

/-- A verdict once given does not depend on what the server sends afterwards. -/
theorem handshake_stable {auths : List AuthInfo} {dest : BAddr} {c : Bytes} (h : (handshake auths dest c).reported ≠ [])
    (r : Bytes) : handshake auths dest (c ++ r) = handshake auths dest c := by
  by_cases h2 : c.length < 2
  · rw [handshake, if_pos h2] at h
    exact absurd rfl h
  have h2' : ¬(c ++ r).length < 2 := by rw [List.length_append]; omega
  have e0 := @byteAt_append_left c r 0 (by omega)
  have e1 := @byteAt_append_left c r 1 (by omega)
  rw [handshake, if_neg h2] at h
  rw [handshake, handshake, if_neg h2, if_neg h2', e0, e1]
  by_cases hb : byteAt c 0 ≠ 5
  · rw [if_pos hb, if_pos hb]
  rw [if_neg hb] at h ⊢
  rw [if_neg hb, List.drop_append_of_le_length (by omega)]
  cases hf : auths.find? (fun ai => ai.authType = byteAt c 1) with
  | none => rfl
  | some ai =>
    cases ai with
    | none =>
      simp only [hf] at h ⊢
      exact requestPhase_stable h r
    | password username password =>
      simp only [hf] at h ⊢
      by_cases hv : ¬ValidPassword username password
      · rw [if_pos hv, if_pos hv]
      · rw [if_neg hv] at h ⊢
        rw [if_neg hv, passwordPhase_stable h]

/-- A list of at least two bytes, taken apart. -/
theorem two_bytes {l : Bytes} (h : 2 ≤ l.length) : l = byteAt l 0 :: byteAt l 1 :: l.drop 2 := by
  match l, h with
  | _ :: _ :: _, _ => rfl

/-- A list of at least four bytes, taken apart. -/
theorem four_bytes {l : Bytes} (h : 4 ≤ l.length) :
    l = byteAt l 0 :: byteAt l 1 :: byteAt l 2 :: byteAt l 3 :: l.drop 4 := by
  match l, h with
  | _ :: _ :: _ :: _ :: _, _ => rfl

/-- The first entry of a method is of that method. -/
theorem find_authType {auths : List AuthInfo} {m : UInt8} {ai : AuthInfo}
    (h : auths.find? (fun ai => ai.authType = m) = some ai) : ai.authType = m := by
  simpa using List.find?_some h

/-- After the selection of user name and password. -/
theorem handshake_password {auths : List AuthInfo} (dest : BAddr) {username password : Bytes}
    (h : auths.find? (fun ai => ai.authType = 2) = some (.password username password)) (hv : ValidPassword username password)
    (r : Bytes) :
    handshake auths dest ([5, 2] ++ r) =
      passwordPhase dest (helloMessage auths ++ passwordMessage username password) 2 r := by
  have hl : ¬([5, 2] ++ r : Bytes).length < 2 := by simp
  have e0 : byteAt ([5, 2] ++ r) 0 = 5 := rfl
  have e1 : byteAt ([5, 2] ++ r) 1 = 2 := rfl
  rw [handshake, if_neg hl, e0, e1, h, if_neg (not_not_intro rfl)]
  simp only
  rw [if_neg (not_not_intro hv)]
  rfl

/-- After authentication. -/
theorem handshake_authenticated {auths : List AuthInfo} (dest : BAddr) {sent auth : Bytes} (h : Authenticated auths sent auth)
    (r : Bytes) : handshake auths dest (auth ++ r) = requestPhase dest sent auth.length r := by
  cases h with
  | none h =>
    have hl : ¬([5, 0] ++ r : Bytes).length < 2 := by simp
    have e0 : byteAt ([5, 0] ++ r) 0 = 5 := rfl
    have e1 : byteAt ([5, 0] ++ r) 1 = 0 := rfl
    rw [handshake, if_neg hl, e0, e1, h, if_neg (not_not_intro rfl)]
    rfl
  | password h hv =>
    have hp := handshake_password dest h hv ([1, 0] ++ r)
    have hl : ¬([1, 0] ++ r : Bytes).length < 2 := by simp
    have e0 : byteAt ([1, 0] ++ r) 0 = 1 := rfl
    have e1 : byteAt ([1, 0] ++ r) 1 = 0 := rfl
    rw [passwordPhase, if_neg hl, e0, e1, if_neg (by simp)] at hp
    exact hp

/-- On a whole successful handshake the verdict is up, and all of it is taken. -/
theorem handshake_up {auths : List AuthInfo} (dest : BAddr) {sent auth addr : Bytes} {rsv atyp : UInt8}
    (ha : Authenticated auths sent auth) (hl : addressLength atyp = some addr.length) :
    handshake auths dest (auth ++ [5, 0, rsv, atyp] ++ addr) =
      ⟨sent ++ requestMessage dest, [.up], (auth ++ [5, 0, rsv, atyp] ++ addr).length⟩ := by
  have hlen : ([5, 0, rsv, atyp] ++ addr).length = 4 + addr.length := by simp; omega
  have e0 : byteAt ([5, 0, rsv, atyp] ++ addr) 0 = 5 := rfl
  have e1 : byteAt ([5, 0, rsv, atyp] ++ addr) 1 = 0 := rfl
  have e3 : byteAt ([5, 0, rsv, atyp] ++ addr) 3 = atyp := rfl
  rw [List.append_assoc, handshake_authenticated dest ha, requestPhase, e0, e1, e3, hl, hlen, if_neg (by omega),
    if_neg (by simp)]
  simp only
  rw [if_neg (by omega), List.length_append, hlen, Nat.add_assoc]

/-- A positive reply with its whole address is in front of the stream when the verdict is up. -/
theorem requestPhase_up {dest : BAddr} {sent : Bytes} {n : Nat} {r : Bytes}
    (h : (requestPhase dest sent n r).reported = [.up]) :
    ∃ rsv atyp addr rest, r = [5, 0, rsv, atyp] ++ addr ++ rest ∧ addressLength atyp = some addr.length ∧
      (requestPhase dest sent n r).consumed = n + (4 + addr.length) := by
  by_cases h4 : r.length < 4
  · rw [requestPhase, if_pos h4] at h
    cases h
  by_cases hb : byteAt r 0 ≠ 5 ∨ byteAt r 1 ≠ 0
  · rw [requestPhase, if_neg h4, if_pos hb] at h
    cases h
  rw [requestPhase, if_neg h4, if_neg hb] at h ⊢
  cases hl : addressLength (byteAt r 3) with
  | none =>
    simp only [hl] at h
    cases h
  | some len =>
    simp only [hl] at h ⊢
    by_cases hs : r.length < 4 + len
    · rw [if_pos hs] at h
      cases h
    obtain ⟨h5, h0⟩ : byteAt r 0 = 5 ∧ byteAt r 1 = 0 := by
      rw [not_or, not_not, not_not] at hb
      exact hb
    have haddr : ((r.drop 4).take len).length = len := by
      rw [List.length_take, List.length_drop]
      omega
    refine ⟨byteAt r 2, byteAt r 3, (r.drop 4).take len, (r.drop 4).drop len, ?_, by rw [haddr, hl], ?_⟩
    · have hr := four_bytes (Nat.le_of_not_lt h4)
      rw [h5, h0] at hr
      rw [List.append_assoc, List.take_append_drop]
      exact hr
    · rw [if_neg hs, haddr, Nat.add_assoc]

/-- The verdict is up exactly when the stream starts with a whole successful handshake, which is what the client takes. -/
theorem reported_up_iff (auths : List AuthInfo) (dest : BAddr) (stream : Bytes) :
    (handshake auths dest stream).reported = [.up] ↔
      ∃ c, UpStream auths c ∧ c <+: stream ∧ (handshake auths dest stream).consumed = c.length := by
  constructor
  · intro h
    have hreq : ∀ sent auth r, Authenticated auths sent auth → stream = auth ++ r →
        ∃ c, UpStream auths c ∧ c <+: stream ∧ (handshake auths dest stream).consumed = c.length := by
      intro sent auth r ha hs
      rw [hs, handshake_authenticated dest ha] at h
      obtain ⟨rsv, atyp, addr, rest, rfl, hl, hc⟩ := requestPhase_up h
      refine ⟨auth ++ [5, 0, rsv, atyp] ++ addr, ⟨sent, auth, rsv, atyp, addr, ha, hl, rfl⟩, ⟨rest, ?_⟩, ?_⟩
      · rw [hs]
        simp only [List.append_assoc]
      · rw [hs, handshake_authenticated dest ha, hc]
        simp only [List.length_append, List.length_cons, List.length_nil]
        omega
    by_cases h2 : stream.length < 2
    · rw [handshake, if_pos h2] at h
      cases h
    have hsplit := two_bytes (Nat.le_of_not_lt h2)
    by_cases hb : byteAt stream 0 ≠ 5
    · rw [handshake, if_neg h2, if_pos hb] at h
      cases h
    rw [not_not.mp hb] at hsplit
    cases hf : auths.find? (fun ai => ai.authType = byteAt stream 1) with
    | none =>
      rw [handshake, if_neg h2, if_neg hb, hf] at h
      cases h
    | some ai =>
      have hm := find_authType hf
      cases ai with
      | none =>
        rw [← hm] at hf hsplit
        exact hreq _ _ (stream.drop 2) (.none hf) hsplit
      | password username password =>
        rw [← hm] at hf hsplit
        by_cases hv : ValidPassword username password
        · have hp : handshake auths dest stream =
              passwordPhase dest (helloMessage auths ++ passwordMessage username password) 2 (stream.drop 2) := by
            rw [← handshake_password dest hf hv]
            exact congrArg _ hsplit
          by_cases hr2 : (stream.drop 2).length < 2
          · rw [hp, passwordPhase, if_pos hr2] at h
            cases h
          by_cases hrb : byteAt (stream.drop 2) 0 ≠ 1 ∨ byteAt (stream.drop 2) 1 ≠ 0
          · rw [hp, passwordPhase, if_neg hr2, if_pos hrb] at h
            cases h
          have hsplit' := two_bytes (Nat.le_of_not_lt hr2)
          rw [not_or, not_not, not_not] at hrb
          rw [hrb.1, hrb.2] at hsplit'
          rw [hsplit'] at hsplit
          exact hreq _ _ _ (.password hf hv) hsplit
        · rw [hm] at hf
          rw [handshake, if_neg h2, if_neg hb, hf] at h
          simp only at h
          rw [if_pos hv] at h
          cases h
  · rintro ⟨c, hc, ⟨r, rfl⟩, -⟩
    obtain ⟨sent, auth, rsv, atyp, addr, ha, hl, rfl⟩ := hc
    have hup := @handshake_up auths dest sent auth addr rsv atyp ha hl
    rw [handshake_stable (by rw [hup]; simp), hup]

end HandshakeAux

end PsiphonAndroid
