import PsiphonAndroid.Tun2Socks.TcpClient

/-!
# Closing the two sides of a TCP client

`client_handle_freed_client`, `client_free_client`, `client_abort_client` and `client_free_socks` call each other. Each of them sets
its side closed before it calls another, so the calls end; here is what they leave, as one record update for each case.
-/

namespace PsiphonAndroid

namespace TcpClient

/-- An assertion that holds does nothing. -/
theorem check_pos {b : Bool} (h : b = true) (f : TcpFault) : check b f = .ok () := if_pos h

/-- The pcb is gone, and with it its callbacks. -/
def withoutPcb (c : TcpClient) (e : PcbEnd) : TcpClient :=
  { c with
    errFunc := false
    recvFunc := false
    sentFunc := false
    pcb := false
    pcbEnd := some e }

/-- The SOCKS client is gone; where the client side is open and SOCKS was up, nothing is received from the application any more. -/
def withoutSocks (c : TcpClient) (why : SocksEnd) : TcpClient :=
  { c with
    recvFunc := c.recvFunc && !(c.socksUp && !c.clientClosed)
    socksClient := false
    sending := none
    receiving := false
    socksClosed := true
    socksEnd := some why }

/-- The client after its client side closed: it waits while there is data for SOCKS, and else is freed with its SOCKS client. -/
def afterPcb (c : TcpClient) : TcpClient :=
  if 0 < c.bufUsed ∧ c.socksClosed = false then { c with
    deadClient := true
    clientClosed := true }
  else if c.socksClosed = false then { withoutSocks { c with
      deadClient := true
      clientClosed := true } .drained with freed := true }
  else { c with
    deadClient := true
    clientClosed := true
    freed := true }

/-- There is data for the application, in the buffer or not yet confirmed. -/
def HasDataForClient (c : TcpClient) : Prop := 0 ≤ c.socksRecvBufUsed ∨ 0 < c.socksRecvTcpPending

instance (c : TcpClient) : Decidable c.HasDataForClient := inferInstanceAs (Decidable (_ ∨ _))

/-- The client after its SOCKS side closed: it waits while there is data for the application, and else is freed with its pcb. -/
def afterSocks (c : TcpClient) (why : SocksEnd) : TcpClient :=
  if c.socksUp = true ∧ c.HasDataForClient ∧ c.clientClosed = false then c.withoutSocks why
  else if c.clientClosed = false then ((c.withoutSocks why).withoutPcb (.closed true)).afterPcb
  else { c.withoutSocks why with freed := true }

variable {c : TcpClient}

/-- The last reference frees the client. -/
theorem clientDealloc_eq (hf : c.freed = false) (hc : c.clientClosed = true) (hs : c.socksClosed = true) :
    c.clientDealloc = .ok { c with freed := true } := by
  unfold clientDealloc
  rw [check_pos (by rw [hf]; rfl), check_pos hc, check_pos hs]
  rfl

/-- Where the client side is open and SOCKS was up, no more is received from the application. -/
theorem stopReceiving_eq (hp : c.clientClosed = false → c.pcb = true) :
    c.stopReceiving = .ok { c with recvFunc := c.recvFunc && !(c.socksUp && !c.clientClosed) } := by
  unfold stopReceiving
  split
  · rename_i h
    rw [check_pos (hp h.2), h.1, h.2, Bool.not_false, Bool.and_true, Bool.not_true, Bool.and_false]
    rfl
  · rename_i h
    have hn : (c.socksUp && !c.clientClosed) = false := by
      cases hu : c.socksUp with
      | false => rfl
      | true =>
        cases hc : c.clientClosed with
        | false => exact absurd ⟨hu, hc⟩ h
        | true => rfl
    rw [hn, Bool.not_false, Bool.and_true]
    rfl

/-- The SOCKS client is given up. -/
theorem socksClientFree_eq (hk : c.socksClient = true) : c.socksClientFree = .ok { c with
    socksClient := false
    sending := none
    receiving := false } := by
  unfold socksClientFree
  rw [check_pos hk]
  rfl

/-- The SOCKS client is freed after the client side closed. -/
theorem clientFreeSocks_closed (fuel : Nat) (why : SocksEnd) (hf : c.freed = false) (hc : c.clientClosed = true)
    (hs : c.socksClosed = false) (hk : c.socksClient = true) :
    clientFreeSocks (fuel + 1) why c = .ok { c.withoutSocks why with freed := true } := by
  have hstop := stopReceiving_eq (c := c) (fun h => absurd (h.symm.trans hc) Bool.noConfusion)
  unfold clientFreeSocks
  rw [check_pos (by rw [hf]; rfl), check_pos (by rw [hs]; rfl)]
  simp only [bind, Except.bind, pure, Except.pure, hstop]
  rw [socksClientFree_eq (by exact hk)]
  dsimp only
  rw [if_neg (fun h => absurd (h.2.2.symm.trans hc) Bool.noConfusion),
    if_neg (fun h => absurd (h.symm.trans hc) Bool.noConfusion)]
  exact clientDealloc_eq (c := c.withoutSocks why) hf hc rfl

/-- After its pcb is gone a client goes on for SOCKS, or is freed. -/
theorem clientHandleFreedClient_eq (fuel : Nat) (hf : c.freed = false) (hc : c.clientClosed = false)
    (hk : c.socksClosed = false → c.socksClient = true) : clientHandleFreedClient (fuel + 2) c = .ok c.afterPcb := by
  unfold clientHandleFreedClient afterPcb
  rw [check_pos (by rw [hf]; rfl), check_pos (by rw [hc]; rfl)]
  simp only [bind, Except.bind, pure, Except.pure]
  split
  · rfl
  · split
    · rename_i hs
      exact clientFreeSocks_closed fuel .drained hf rfl hs (hk hs)
    · rename_i hs
      exact clientDealloc_eq hf rfl (Bool.not_eq_false _ ▸ hs)

/-- The callbacks of the pcb are taken off. -/
theorem removeCallbacks_eq (hp : c.pcb = true) : c.removeCallbacks = .ok { c with
    errFunc := false
    recvFunc := false
    sentFunc := false } := by
  unfold removeCallbacks
  rw [check_pos hp]
  rfl

/-- The client closes its pcb and goes on without it. -/
theorem clientFreeClient_eq (fuel : Nat) (hf : c.freed = false) (hc : c.clientClosed = false) (hp : c.pcb = true)
    (hk : c.socksClosed = false → c.socksClient = true) :
    clientFreeClient (fuel + 3) c = .ok (c.withoutPcb (.closed c.socksClosed)).afterPcb := by
  unfold clientFreeClient
  rw [check_pos (by rw [hf]; rfl), check_pos (by rw [hc]; rfl), removeCallbacks_eq hp]
  exact clientHandleFreedClient_eq (c := c.withoutPcb (.closed c.socksClosed)) fuel hf hc hk

/-- The client aborts its pcb and goes on without it. -/
theorem clientAbortClient_eq (hf : c.freed = false) (hc : c.clientClosed = false) (hp : c.pcb = true)
    (hk : c.socksClosed = false → c.socksClient = true) : c.clientAbortClient = .ok (c.withoutPcb .aborted).afterPcb := by
  unfold clientAbortClient
  rw [check_pos (by rw [hf]; rfl), check_pos (by rw [hc]; rfl), removeCallbacks_eq hp]
  exact clientHandleFreedClient_eq (c := c.withoutPcb .aborted) 2 hf hc hk

/-- SOCKS is given up, and the client goes on for what its buffer still holds, or is freed. -/
theorem clientFreeSocks_eq (fuel : Nat) (why : SocksEnd) (hf : c.freed = false) (hs : c.socksClosed = false)
    (hk : c.socksClient = true) (hp : c.clientClosed = false → c.pcb = true) :
    clientFreeSocks (fuel + 4) why c = .ok (c.afterSocks why) := by
  have hstop := stopReceiving_eq hp
  unfold clientFreeSocks
  rw [check_pos (by rw [hf]; rfl), check_pos (by rw [hs]; rfl)]
  simp only [bind, Except.bind, pure, Except.pure, hstop]
  rw [socksClientFree_eq (by exact hk)]
  dsimp only
  unfold afterSocks HasDataForClient
  split
  · rfl
  · split
    · rename_i hc
      exact clientFreeClient_eq (c := c.withoutSocks why) fuel hf hc (hp hc) (fun h => Bool.noConfusion h)
    · rename_i hc
      exact clientDealloc_eq (c := c.withoutSocks why) hf (Bool.not_eq_false _ ▸ hc) rfl

end TcpClient

end PsiphonAndroid
