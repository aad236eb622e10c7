import TypedStub.Main
import TypedStub.Proofs.CommandLine.Delivery
import TypedStub.Proofs.Documentation.FieldPatterns
import TypedStub.Proofs.Outline.Parameters
import TypedStub.Proofs.Outline.Relevance
import TypedStub.Proofs.Outline.Repeats
import TypedStub.Proofs.Outline.Rereading
import TypedStub.Proofs.Registry
import TypedStub.Proofs.Stub.ControlCharacters
import TypedStub.Proofs.Stub.Legible
import TypedStub.Proofs.Stub.ParameterKinds
import TypedStub.Proofs.Stub.Writer
import TypedStub.Proofs.TypeTerm.FirstFault
import TypedStub.Proofs.TypeTerm.Tiling
