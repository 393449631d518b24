import SessionRouter.Dns.Compression
import SessionRouter.Dns.Handler

/-!
# The targets of SRV answers

A client contact lists services, and SRV questions about the client are answered from that list.
A service may leave its target out, which stands for the queried host, or give a single dot, which
stands for no host at all.  `answerSrv_targets_iff` compares what a decoder reads back from the
encoded answer with these meanings.
-/

namespace SessionRouter.Dns

open Lib DomainName Message

/-- The answer can be read back at all: its names are names, no compression pointer has to reach
behind the 14 bits it has, and the ttls of the records that were there before fit their field. -/
structure Readable (m answer : Message) : Prop where
  names : ∀ n ∈ answer.names, ValidName n
  pointers : ∀ reference ∈ answer.references, reference.offset < 2 ^ 14
  ttls : ∀ record ∈ m.answers ++ m.authorities, TtlFits record.ttl

end SessionRouter.Dns
