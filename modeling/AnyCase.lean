import AnyCase.Main
import AnyCase.Proofs.CommandLine.Arguments
import AnyCase.Proofs.CommandLine.Order
import AnyCase.Proofs.Conversion.Content
import AnyCase.Proofs.Conversion.FullDevice
import AnyCase.Proofs.Conversion.Pairing
import AnyCase.Proofs.Line.Scanner
import AnyCase.Proofs.Line.Settling
import AnyCase.Proofs.Literal.Spelling
import AnyCase.Proofs.Stream.Size
