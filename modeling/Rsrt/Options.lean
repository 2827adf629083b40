import Rsrt.Crypto.Context

namespace Rsrt

/-!
# Connection options and errors

The options that the connection core reads, the resolution of the encryption
options, and the errors of the public interface that it can return.  Options that
only the socket layer reads are left out.
-/

/-- Why an established connection ended. -/
inductive CloseReason
  | shutdown
  | peerIdle
  | dataIdle
  /-- Closed by the local application. -/
  | locally
  | connectTimeout
  | rejected (code : Nat)
  | sequenceDiscrepancy
deriving DecidableEq

inductive SrtError
  | connectTimeout
  /-- Peer rejected the handshake. -/
  | rejected (code : Nat)
  /-- One side has a passphrase and the other does not. -/
  | encryptionUnsupported
  | payloadTooLarge (length : Nat)
  | closed (reason : CloseReason)
  | invalidPassphrase
  | invalidKmParameters (why : String)
deriving DecidableEq

/-- Sender pacing mode; rates are bytes per second. -/
inductive Bandwidth
  | unlimited
  | max (bytesPerSec : Nat)
  | input (bytesPerSec overheadPct : Nat)
  | estimated (minBytesPerSec overheadPct : Nat)
deriving DecidableEq

def passphraseMin : Nat := 10

def passphraseMax : Nat := 80

structure SrtOptions where
  latency : Duration := Duration.fromMillis 120
  peerLatency : Duration := 0
  streamid : Option Bytes := none
  mss : Nat := 1500
  flowWindow : Nat := 8192
  recvBufferPkts : Nat := 8192
  sendBufferPkts : Nat := 8192
  connectTimeout : Duration := Duration.fromSecs 3
  peerIdleTimeout : Duration := Duration.fromSecs 5
  dataIdleTimeout : Option Duration := none
  bandwidth : Bandwidth := .unlimited
  passphrase : Option Bytes := none
  pbkeylen : Option KeyLength := none
  kmRefreshRate : Option Nat := none
  kmPreannounce : Option Nat := none
deriving DecidableEq

namespace SrtOptions

def maxPayload (self : SrtOptions) : Nat := self.mss - 44

/-- Resolves the encryption options; `none` is an unencrypted connection. -/
def cryptoConfig (self : SrtOptions) : Except SrtError (Option CryptoConfig) :=
  match self.passphrase.filter fun pw => !pw.isEmpty with
  | none => .ok none
  | some pw =>
      if pw.length < passphraseMin ∨ passphraseMax < pw.length then .error .invalidPassphrase
      else
        let rrExplicit := ¬(self.kmRefreshRate = none ∨ self.kmRefreshRate = some 0)
        let rr := if rrExplicit then self.kmRefreshRate.getD 0 else 0x1000000
        if rrExplicit ∧ 0x80000000 ≤ rr then
          .error (.invalidKmParameters "km_refresh_rate must be < 2^31 (CTR keystream reuse)")
        else
          let maxPa := (rr - 1) / 2
          let pa := self.kmPreannounce.getD 0
          if pa ≠ 0 ∧ maxPa < pa then
            .error (.invalidKmParameters "km_preannounce must be <= (km_refresh_rate - 1) / 2")
          else
            .ok (some
              { passphrase := pw
                keyLen := self.pbkeylen.getD .aes128
                kmRefreshRate := rr
                -- An unset window is the largest one, unless the rate is unset too.
                kmPreannounce := if pa ≠ 0 then pa else if rrExplicit then maxPa else 0x10000 })

end SrtOptions

end Rsrt
