import CachePolicy.Main
import CachePolicy.Proofs.Cli.Build
import CachePolicy.Proofs.Config.Precedence
import CachePolicy.Proofs.Policy.ApiPattern
import CachePolicy.Proofs.Policy.Evaluation
import CachePolicy.Proofs.Policy.Fingerprint
import CachePolicy.Proofs.Policy.Manifest
import CachePolicy.Proofs.Policy.Queues
import CachePolicy.Proofs.Site.Pages
import CachePolicy.Proofs.Site.Rebuild
import CachePolicy.Proofs.Worker.Availability
import CachePolicy.Proofs.Worker.Changes
import CachePolicy.Proofs.Worker.Failure
import CachePolicy.Proofs.Worker.Independence
import CachePolicy.Proofs.Worker.Reading
import CachePolicy.Proofs.Worker.Swept
