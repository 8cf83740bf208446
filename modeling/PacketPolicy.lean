import PacketPolicy.Files.Tree
import PacketPolicy.Main
import PacketPolicy.Proofs.Iptables.Chain
import PacketPolicy.Proofs.Policy.Resolution
import PacketPolicy.Proofs.Iptables.Document
import PacketPolicy.Proofs.Iptables.Multiport
import PacketPolicy.Proofs.Iptables.Rules
import PacketPolicy.Proofs.Text.Bytes
import PacketPolicy.Proofs.Iptables.References
import PacketPolicy.Proofs.Iptables.ChainNames
import PacketPolicy.Proofs.Policy.Keys
import PacketPolicy.Proofs.Iptables.Keywords
import PacketPolicy.Proofs.Script.Reversal
import PacketPolicy.Proofs.Script.Words
import PacketPolicy.Proofs.Render.Comment
import PacketPolicy.Proofs.Iptables.Quoting
import PacketPolicy.Proofs.Address.Text
import PacketPolicy.Proofs.Address.Written
import PacketPolicy.Proofs.Iptables.Lines
import PacketPolicy.Proofs.Iptables.Addresses
import PacketPolicy.Proofs.Render.TermName
import PacketPolicy.Proofs.Script.Reading
import PacketPolicy.Proofs.Iptables.Legible
import PacketPolicy.Proofs.Iptables.ReadBack
import PacketPolicy.Proofs.Script.Order
import PacketPolicy.Proofs.Definitions.Walks
import PacketPolicy.Proofs.Definitions.Flattening
import PacketPolicy.Proofs.Ipsec.Filters
import PacketPolicy.Proofs.Iptables.Target
import PacketPolicy.Proofs.Render.Sections
import PacketPolicy.Proofs.Script.Repetition
import PacketPolicy.Proofs.Iptables.Flags
import PacketPolicy.Proofs.Ipsec.References
import PacketPolicy.Proofs.Files.Path
import PacketPolicy.Proofs.Files.Tree
import PacketPolicy.Proofs.Command.Session
import PacketPolicy.Proofs.Command.Renderings
import PacketPolicy.Proofs.Address.Optimum
import PacketPolicy.Proofs.Iptables.Established
import PacketPolicy.Proofs.Iptables.LineCount
import PacketPolicy.Proofs.Port.Canonical
import PacketPolicy.Proofs.Port.Text
import PacketPolicy.Proofs.Iptables.PortClauses
import PacketPolicy.Proofs.Address.RoundTrip
import PacketPolicy.Proofs.Script.Composition
import PacketPolicy.Proofs.Render.Faults
import PacketPolicy.Proofs.Iptables.Offences
import PacketPolicy.Proofs.Iptables.Refusal
import PacketPolicy.Proofs.Script.Record
import PacketPolicy.Proofs.Port.Reading
import PacketPolicy.Proofs.Render.Abbreviation
import PacketPolicy.Proofs.Iptables.NameLength
import PacketPolicy.Proofs.Definitions.Merging
import PacketPolicy.Proofs.Calendar.Expiration
