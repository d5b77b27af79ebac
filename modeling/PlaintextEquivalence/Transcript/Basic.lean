import PlaintextEquivalence.Transcript.Strobe

/-!
# Transcripts

What a prover and a verifier have absorbed so far: a protocol label and a list of entries.  A
challenge is a function of these and nothing else, and taking one is recorded as an entry.

Models the `Transcript` of Merlin: `append`, `appendWord` and `challenge` are `append_message`,
`append_u64` and `challenge_bytes`.
-/

namespace PlaintextEquivalence

/-- What a transcript has taken in, or given out. -/
inductive Transcript.Entry where
  | message (label : String) (data : Bytes)
  | challenge (label : String) (size : Nat)
  deriving DecidableEq, Repr

/-- A protocol label and the entries since, oldest first. -/
structure Transcript where
  label : String
  entries : List Transcript.Entry
  deriving DecidableEq, Repr

namespace Transcript

/-- The empty transcript of a protocol. -/
def start (label : String) : Transcript := ⟨label, []⟩

def append (t : Transcript) (label : String) (data : Bytes) : Transcript :=
  { t with entries := t.entries ++ [.message label data] }

/-- Appends a 64-bit number as eight bytes, least first. -/
def appendWord (t : Transcript) (label : String) (n : UInt64) : Transcript :=
  t.append label (Bytes.ofNat 8 n.toNat)

/-- The sponge after a message: framed by its label and length. -/
def absorb (s : Strobe) (label : String) (data : Bytes) : Strobe :=
  (s.frame (Bytes.ofText label)).absorb (Bytes.ofNat 4 data.length) |>.associate data

/-- Pseudorandom bytes, framed by their label and number. -/
def squeeze (s : Strobe) (label : String) (size : Nat) : Bytes × Strobe :=
  (s.frame (Bytes.ofText label)).absorb (Bytes.ofNat 4 size) |>.random size

def Entry.apply (s : Strobe) : Entry → Strobe
  | .message label data => absorb s label data
  | .challenge label size => (squeeze s label size).2

/-- The sponge that has taken in a transcript. -/
def sponge (t : Transcript) : Strobe :=
  t.entries.foldl Entry.apply (absorb (Strobe.ofProtocol "Merlin v1.0") "dom-sep" (Bytes.ofText t.label))

/-- Challenge bytes, and the transcript that records their taking. -/
def challenge (t : Transcript) (label : String) (size : Nat) : Bytes × Transcript :=
  ((squeeze t.sponge label size).1, { t with entries := t.entries ++ [.challenge label size] })

end Transcript

end PlaintextEquivalence
