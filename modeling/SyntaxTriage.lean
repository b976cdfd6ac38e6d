import SyntaxTriage.Main
import SyntaxTriage.Proofs.FString.Extension
import SyntaxTriage.Proofs.FString.Literal
import SyntaxTriage.Proofs.Layout.InnerBreaks
import SyntaxTriage.Proofs.Layout.Levels
import SyntaxTriage.Proofs.Layout.Located
import SyntaxTriage.Proofs.Reason.Cause
import SyntaxTriage.Proofs.Source.Continuation
import SyntaxTriage.Proofs.Source.Log
import SyntaxTriage.Proofs.Source.Position
