import MonitoringPlug.Lib.Format
import MonitoringPlug.Sms.Encode

/-! The command `notify_sms` sends a message with. GSM 07.05 counts the octets behind
the SMSC address in it. -/
namespace MonitoringPlug.Sms

open Octets CText

/-- What is handed to `mobile_at_command_input`: the `=` and the length behind `+CMGS`,
and the PDU that is the input. -/
structure SendCommand where
  opt : List Char
  pdu : List Char
deriving DecidableEq

/-- `main` of `notify_sms`, from the rendered message on. -/
def sendCommand (number msg : List Char) : SendCommand :=
  let pdu := smsEncodePdu none number msg
  { opt := '=' :: (Nat.toDigits 10 (pdu.length / 2)).leftpad 2 '0', pdu := pdu }

/-- The number the modem reads behind the `=`. -/
def SendCommand.announced (cmd : SendCommand) : Nat := digitsValue cmd.opt.tail

/-- The octets of the transfer layer PDU: those behind the octet that counts the SMSC
octets, and these. -/
def transferOctets (pdu : List Char) : Option Nat :=
  (readOctet pdu).map fun (smsc, rest) => (rest.drop (2 * smsc)).length / 2

/-- The modem is told the length of what it is sent. -/
def SendCommand.Announces (cmd : SendCommand) : Prop := transferOctets cmd.pdu = some cmd.announced

instance (cmd : SendCommand) : Decidable cmd.Announces :=
  inferInstanceAs (Decidable (transferOctets cmd.pdu = some cmd.announced))

/-- Without an SMSC the PDU is one octet longer than the transfer layer part. -/
theorem transferOctets_pdu (number msg : List Char) :
    ∃ octets, transferOctets (smsEncodePdu none number msg) = some octets ∧
      (smsEncodePdu none number msg).length / 2 = octets + 1 := by
  obtain ⟨rest, hPdu⟩ : ∃ rest, smsEncodePdu none number msg = '0' :: '0' :: rest :=
    ⟨_, rfl⟩
  have hSmsc : readOctet ('0' :: '0' :: rest) = some (0, rest) := by
    simp [readOctet, hexVal]
  rw [hPdu, transferOctets, hSmsc]
  refine ⟨rest.length / 2, rfl, ?_⟩
  simp only [List.length_cons]
  omega

theorem sendCommand_announced (number msg : List Char) :
    (sendCommand number msg).announced = (smsEncodePdu none number msg).length / 2 :=
  digitsValue_leftpad 2 _

/-- Whatever the number and the message are, one octet too many is announced. -/
theorem sendCommand_not_announces (number msg : List Char) :
    ¬(sendCommand number msg).Announces := by
  obtain ⟨octets, hOctets, hLength⟩ := transferOctets_pdu number msg
  intro hAnnounces
  rw [SendCommand.Announces, sendCommand_announced, hLength] at hAnnounces
  have hSame : some octets = some (octets + 1) := hOctets.symm.trans hAnnounces
  exact absurd (Option.some.inj hSame) (by omega)

/-- `a` to the number 1: ten octets are announced and nine follow. -/
theorem sendCommand_not_announces_letter : ¬(sendCommand ['1'] ['a']).Announces := by
  decide +kernel

end MonitoringPlug.Sms
